import AbixioUi.Foundation.Store
import AbixioUi.Sync.Addressing

/-! # What executing a run plan does to the destination

A run plan is executed on an abstract store: a transfer copies the content at its
source address to its destination address, a delete removes its destination
address. Transfers and deletes may be taken in any order.
-/

namespace AbixioUi

open Foundation

universe u

variable {Content : Type u}

def SyncRunPlan.operations (runPlan : SyncRunPlan) : List (StoreOp TransferEndpoint) :=
  runPlan.transfers.map (fun item => .copy item.source item.destination) ++
    runPlan.deletes.map (fun item => .remove item.destination)

/-! ## Destination keys -/

/-- The object a relative path names in the destination bucket. -/
def destinationObject (sync : SyncState) (path : Str) : TransferEndpoint :=
  .s3 sync.destinationConnectionId sync.destinationBucket (joinS3Key sync.destinationPrefix path)

/-- The relative paths a listing of the destination would show. -/
def destinationPaths (sync : SyncState) (store : Store TransferEndpoint Content) : Set Str :=
  {path | ∃ key, sync.destinationPrefix <+: key ∧
    (store (.s3 sync.destinationConnectionId sync.destinationBucket key)).isSome ∧
    listedPath sync.destinationPrefix key = path}

theorem joinS3Key_injective (keyPrefix : Str) : Function.Injective (joinS3Key keyPrefix) := by
  intro a b h
  unfold joinS3Key at h
  split_ifs at h
  · exact h
  · exact List.append_cancel_left h
  · simpa using h

theorem isPrefix_joinS3Key (keyPrefix path : Str) : keyPrefix <+: joinS3Key keyPrefix path := by
  unfold joinS3Key
  split_ifs with hempty hslash
  · exact hempty ▸ List.nil_prefix
  · exact List.prefix_append _ _
  · exact List.prefix_append _ _

theorem listedPath_joinS3Key (keyPrefix : Str) {path : Str} (h : path.head? ≠ some '/') :
    listedPath keyPrefix (joinS3Key keyPrefix path) = path := by
  have htrim : trimStartMatches '/' path = path := trimStartMatches_eq_self.mpr h
  unfold joinS3Key listedPath
  split_ifs with hempty hslash
  · simp [hempty, htrim]
  · simp [htrim]
  · simp [htrim]

theorem destinationObject_injective (sync : SyncState) :
    Function.Injective (destinationObject sync) := by
  intro a b h
  exact joinS3Key_injective _ (TransferEndpoint.s3.inj h).2.2

theorem buildTransferEndpoint_destination {platform : Platform} {sync : SyncState}
    (hs3 : sync.destinationKind = .s3) (path : Str) :
    buildTransferEndpoint platform sync false path = .ok (destinationObject sync path) := by
  simp [buildTransferEndpoint, hs3, destinationObject]

/-- Relative paths never start with a slash. -/
theorem EndpointContents.listed_head? {platform : Platform} {params : EndpointParams}
    {time : TimeCodec} {contents : EndpointContents platform params} {listed : ListedObject}
    (h : listed ∈ contents.listed time) : listed.object.relativePath.head? ≠ some '/' := by
  cases contents with
  | s3 hkind bucket =>
      obtain ⟨info, -, rfl⟩ := List.mem_map.mp h
      exact trimStartMatches_head? _ _
  | «local» root hkind hroot tree =>
      obtain ⟨file, -, rfl⟩ := List.mem_map.mp h
      exact relativeNames_head? _ _

/-! ## Hypotheses and outcome -/

/-- An S3 destination and a source apart from it, both as the store holds them, with
distinct paths that lead back to the listed addresses. -/
structure Reconcilable (platform : Platform) (time : TimeCodec) (sync : SyncState)
    (source : EndpointContents platform (syncEndpointParams sync true))
    (destination : BucketListing sync.destinationPrefix)
    (store : Store TransferEndpoint Content) : Prop where
  destination_s3 : sync.destinationKind = .s3
  source_rebuilt : ∀ listed ∈ source.listed time,
    buildTransferEndpoint platform sync true listed.object.relativePath = .ok listed.address
  destination_rebuilt : ∀ info ∈ destination.objects,
    buildTransferEndpoint platform sync false (listedPath sync.destinationPrefix info.key) =
      .ok (.s3 sync.destinationConnectionId sync.destinationBucket info.key)
  source_distinct : ((source.listing time).map SyncObject.relativePath).Nodup
  destination_distinct : ((listObjectsRecursiveForSync sync.destinationPrefix
    destination.objects).map SyncObject.relativePath).Nodup
  source_stored : ∀ listed ∈ source.listed time, (store listed.address).isSome
  destination_stored : ∀ key, sync.destinationPrefix <+: key →
    ((store (.s3 sync.destinationConnectionId sync.destinationBucket key)).isSome ↔
      ∃ info ∈ destination.objects, info.key = key)
  disjoint : ∀ listed ∈ source.listed time, ∀ path,
    buildTransferEndpoint platform sync false path ≠ .ok listed.address

/-- The relative paths of a listing. -/
def pathsOf (listing : List SyncObject) : Set Str :=
  {path | ∃ object ∈ listing, object.relativePath = path}

/-- What a run of `plan` has made of `before` once every item was executed. -/
structure Reconciled {platform : Platform} (time : TimeCodec) (sync : SyncState)
    (source : EndpointContents platform (syncEndpointParams sync true))
    (destination : List SyncObject) (mode : SyncMode) (policy : SyncPolicy) (plan : SyncPlan)
    (before after : Store TransferEndpoint Content) : Prop where
  converges : mode = .sync → policy.overwriteChanged = true → policy.deleteExtras = true →
    policy.destinationNewerPolicy = .sourceWins →
    destinationPaths sync after = pathsOf (source.listing time) ∧
      ∀ listed ∈ source.listed time,
        ∃ item ∈ plan.items, item.relativePath = listed.object.relativePath ∧
          (item.action.transfers = true ∧
              after (destinationObject sync item.relativePath) = before listed.address ∨
            item.action = .skip ∧ item.reason = .identical ∧
              after (destinationObject sync item.relativePath) =
                before (destinationObject sync item.relativePath))
  copies : mode = .copy →
    destinationPaths sync after = pathsOf (source.listing time) ∪ pathsOf destination ∧
      ∀ path ∈ pathsOf destination \ pathsOf (source.listing time),
        after (destinationObject sync path) = before (destinationObject sync path)
  unplanned : ∀ address,
    (∀ item ∈ plan.items, item.action.transfers = true ∨ item.action.deletes = true →
      destinationObject sync item.relativePath ≠ address) →
    after address = before address

/-! ## The run plan's operations -/

section Run

variable {platform : Platform} {time : TimeCodec} {sync : SyncState}
variable {source : EndpointContents platform (syncEndpointParams sync true)}
variable {destination : BucketListing sync.destinationPrefix}
variable {before : Store TransferEndpoint Content}
variable {mode : SyncMode} {policy : SyncPolicy} {compareMode : SyncCompareMode}
variable {runPlan : SyncRunPlan} {plan : SyncPlan}

theorem transferRunItem_destination (hs3 : sync.destinationKind = .s3) {planItem : SyncPlanItem}
    {item : SyncRunItem} (h : transferRunItem platform sync planItem = .ok item) :
    item.destination = destinationObject sync planItem.relativePath := by
  obtain ⟨-, -, -, -, haddress, -⟩ := transferRunItem_ok h
  rw [← buildTransferEndpoint_eq, buildTransferEndpoint_destination hs3] at haddress
  exact (Except.ok.inj haddress).symm

theorem deleteRunItem_destination (hs3 : sync.destinationKind = .s3) {planItem : SyncPlanItem}
    {item : SyncRunItem} (h : deleteRunItem platform sync planItem = .ok item) :
    item.destination = destinationObject sync planItem.relativePath := by
  obtain ⟨-, -, -, -, haddress⟩ := deleteRunItem_ok h
  rw [← buildTransferEndpoint_eq, buildTransferEndpoint_destination hs3] at haddress
  exact (Except.ok.inj haddress).symm

theorem operations_targets (hs3 : sync.destinationKind = .s3)
    (hprepare : prepareSyncRunPlan platform sync plan = .ok runPlan) :
    runPlan.operations.map StoreOp.target =
      (plan.items.filter (·.action.transfers) ++ plan.items.filter (·.action.deletes)).map
        fun item => destinationObject sync item.relativePath := by
  obtain ⟨htransfers, hdeletes, -, -⟩ := prepareSyncRunPlan_ok hprepare
  have ht := forall₂_map_eq htransfers (f := fun item => destinationObject sync item.relativePath)
    (g := SyncRunItem.destination) fun _ _ h => transferRunItem_destination hs3 h
  have hd := forall₂_map_eq hdeletes (f := fun item => destinationObject sync item.relativePath)
    (g := SyncRunItem.destination) fun _ _ h => deleteRunItem_destination hs3 h
  rw [List.map_append, ← ht, ← hd]
  simp [SyncRunPlan.operations, Function.comp_def, StoreOp.target]

/-- No two operations of a run have one target. -/
theorem nodup_operations_targets (hs3 : sync.destinationKind = .s3)
    (hpaths : (plan.items.map SyncPlanItem.relativePath).Nodup)
    (hprepare : prepareSyncRunPlan platform sync plan = .ok runPlan) :
    (runPlan.operations.map StoreOp.target).Nodup := by
  have hsplit : ((plan.items.filter (·.action.transfers) ++
      plan.items.filter (·.action.deletes)).map SyncPlanItem.relativePath).Nodup := by
    rw [List.map_append, List.nodup_append]
    refine ⟨hpaths.sublist (List.filter_sublist.map _), hpaths.sublist (List.filter_sublist.map _),
      ?_⟩
    rintro _ hfirst _ hsecond rfl
    obtain ⟨first, hf, hpath⟩ := List.mem_map.mp hfirst
    obtain ⟨second, hs, hpath'⟩ := List.mem_map.mp hsecond
    obtain ⟨hfmem, hftransfers⟩ := List.mem_filter.mp hf
    obtain ⟨hsmem, hsdeletes⟩ := List.mem_filter.mp hs
    obtain rfl : first = second :=
      List.inj_on_of_nodup_map hpaths hfmem hsmem (hpath.trans hpath'.symm)
    cases ha : first.action <;>
      simp_all [SyncPlanAction.transfers, SyncPlanAction.deletes]
  rw [operations_targets hs3 hprepare]
  have hmap := hsplit.map (destinationObject_injective sync)
  rwa [List.map_map] at hmap

/-- An operation's target is the object of an item that is transferred or deleted. -/
theorem mem_operations_targets (hs3 : sync.destinationKind = .s3)
    (hprepare : prepareSyncRunPlan platform sync plan = .ok runPlan) {address : TransferEndpoint} :
    address ∈ runPlan.operations.map StoreOp.target ↔
      ∃ item ∈ plan.items, (item.action.transfers = true ∨ item.action.deletes = true) ∧
        destinationObject sync item.relativePath = address := by
  rw [operations_targets hs3 hprepare]
  simp only [List.mem_map, List.mem_append, List.mem_filter, ← and_or_left, and_assoc]

/-- The plan of the two listings. -/
def planBetween {platform : Platform} {sync : SyncState} (time : TimeCodec)
    (source : EndpointContents platform (syncEndpointParams sync true))
    (destination : BucketListing sync.destinationPrefix) (mode : SyncMode) (policy : SyncPolicy)
    (compareMode : SyncCompareMode) : SyncPlan :=
  buildSyncPlan (source.listing time)
    (listObjectsRecursiveForSync sync.destinationPrefix destination.objects) mode policy
    compareMode

/-- A planned transfer has a listed source object at its path. -/
theorem listed_of_transfer {item : SyncPlanItem}
    (hitem : item ∈ (planBetween time source destination mode policy compareMode).items)
    (haction : item.action.transfers = true) :
    ∃ listed ∈ source.listed time, listed.object.relativePath = item.relativePath := by
  obtain ⟨hlookup, -, hdecision⟩ := buildSyncPlan_item_spec hitem
  obtain ⟨object, hobject⟩ :=
    Option.isSome_iff_exists.mp (isSome_of_planDecision_transfers hdecision haction)
  obtain ⟨hmem, hpath⟩ := mem_of_ofListing_eq_some (hlookup ▸ hobject)
  obtain ⟨listed, hlisted, rfl⟩ := List.mem_map.mp hmem
  exact ⟨listed, hlisted, hpath⟩

theorem planBetween_item_unique {item other : SyncPlanItem}
    (hitem : item ∈ (planBetween time source destination mode policy compareMode).items)
    (hother : other ∈ (planBetween time source destination mode policy compareMode).items)
    (hpath : other.relativePath = item.relativePath) : other = item :=
  List.inj_on_of_nodup_map (nodup_buildSyncPlan_paths _ _ _ _ _) hother hitem hpath

/-- The item of a source path, and what was decided for it. -/
theorem planBetween_source_item {listed : ListedObject} (hlisted : listed ∈ source.listed time) :
    ∃ item ∈ (planBetween time source destination mode policy compareMode).items,
      item.relativePath = listed.object.relativePath ∧
        ∃ object, item.source = some object ∧
          planDecision mode policy compareMode (some object) item.destination =
            some (item.action, item.reason) := by
  have hsome : ((SyncObjectMap.ofListing (source.listing time))[
      listed.object.relativePath]?).isSome :=
    insertAll_isSome_iff.mpr ⟨_, List.mem_map_of_mem hlisted, rfl⟩
  obtain ⟨item, hitem, hpath⟩ := exists_buildSyncPlan_item (.inl hsome)
  obtain ⟨hs, hd, hdecision⟩ := buildSyncPlan_item_spec hitem
  rw [← hpath, ← hs] at hsome
  obtain ⟨object, hobject⟩ := Option.isSome_iff_exists.mp hsome
  rw [hobject] at hdecision
  exact ⟨item, hitem, hpath, object, hobject, hdecision⟩

namespace Reconcilable

variable (h : Reconcilable platform time sync source destination before)
include h

/-- Every item of the plan has a run item: the destination is S3. -/
theorem prepare_isOk (mode : SyncMode) (policy : SyncPolicy) (compareMode : SyncCompareMode) :
    ∃ runPlan, prepareSyncRunPlan platform sync
      (planBetween time source destination mode policy compareMode) = .ok runPlan := by
  refine prepareSyncRunPlan_isOk ?_ ?_
  · intro item hitem haction
    obtain ⟨listed, hlisted, hpath⟩ := listed_of_transfer hitem haction
    have hs := h.source_rebuilt listed hlisted
    rw [hpath] at hs
    exact transferRunItem_isOk hs (buildTransferEndpoint_destination h.destination_s3 _)
  · intro item _ _
    exact deleteRunItem_isOk (buildTransferEndpoint_destination h.destination_s3 _)

/-- A transfer copies from the address of a listed object. -/
theorem transferRunItem_source {planItem : SyncPlanItem} {item : SyncRunItem}
    {listed : ListedObject} (hrun : transferRunItem platform sync planItem = .ok item)
    (hlisted : listed ∈ source.listed time)
    (hpath : listed.object.relativePath = planItem.relativePath) :
    item.source = listed.address := by
  obtain ⟨-, -, -, haddress, -, -⟩ := transferRunItem_ok hrun
  rw [← buildTransferEndpoint_eq, ← hpath, h.source_rebuilt listed hlisted] at haddress
  exact (Except.ok.inj haddress).symm

variable (hprepare : prepareSyncRunPlan platform sync
  (planBetween time source destination mode policy compareMode) = .ok runPlan)
include hprepare

/-- No operation reads what the run writes. -/
theorem not_reads_targets {op : StoreOp TransferEndpoint} (hop : op ∈ runPlan.operations) :
    ¬ StoreOp.Reads (runPlan.operations.map StoreOp.target) op := by
  rcases List.mem_append.mp hop with hop | hop
  · obtain ⟨item, hitem, rfl⟩ := List.mem_map.mp hop
    obtain ⟨planItem, hplan, haction, hrun⟩ := mem_runPlan_transfers hprepare hitem
    obtain ⟨listed, hlisted, hpath⟩ := listed_of_transfer hplan haction
    intro hread
    obtain ⟨other, -, -, htarget⟩ := (mem_operations_targets h.destination_s3 hprepare).mp hread
    rw [h.transferRunItem_source hrun hlisted hpath] at htarget
    refine h.disjoint listed hlisted other.relativePath ?_
    rw [buildTransferEndpoint_destination h.destination_s3, htarget]
  · obtain ⟨item, -, rfl⟩ := List.mem_map.mp hop
    exact id

variable {ops : List (StoreOp TransferEndpoint)} (hops : ops.Perm runPlan.operations)
include hops

/-- Each target holds what its operation leaves there, in every order. -/
theorem applyAll_target {op : StoreOp TransferEndpoint} (hop : op ∈ runPlan.operations) :
    StoreOp.applyAll before ops op.target = op.outcome before := by
  have htargets := hops.map StoreOp.target
  refine StoreOp.applyAll_of_mem ?_ ?_ (hops.mem_iff.mpr hop) before
  · exact htargets.nodup_iff.mpr (nodup_operations_targets h.destination_s3
      (nodup_buildSyncPlan_paths _ _ _ _ _) hprepare)
  · intro other hother hread
    refine h.not_reads_targets hprepare (hops.mem_iff.mp hother) ?_
    cases other with
    | copy source target => exact htargets.mem_iff.mp hread
    | remove target => exact hread

theorem after_transfer {item : SyncPlanItem} {listed : ListedObject}
    (hitem : item ∈ (planBetween time source destination mode policy compareMode).items)
    (haction : item.action.transfers = true) (hlisted : listed ∈ source.listed time)
    (hpath : listed.object.relativePath = item.relativePath) :
    StoreOp.applyAll before ops (destinationObject sync item.relativePath) =
      before listed.address := by
  obtain ⟨runItem, hrunMem, hrun⟩ := forall₂_exists_right (prepareSyncRunPlan_ok hprepare).1
    (List.mem_filter.mpr ⟨hitem, haction⟩)
  have hop : StoreOp.copy runItem.source runItem.destination ∈ runPlan.operations :=
    List.mem_append_left _ (List.mem_map_of_mem (f := fun item : SyncRunItem =>
      StoreOp.copy item.source item.destination) hrunMem)
  have hafter := h.applyAll_target hprepare hops hop
  rw [← transferRunItem_destination h.destination_s3 hrun,
    ← h.transferRunItem_source hrun hlisted hpath]
  exact hafter

theorem after_delete {item : SyncPlanItem}
    (hitem : item ∈ (planBetween time source destination mode policy compareMode).items)
    (haction : item.action.deletes = true) :
    StoreOp.applyAll before ops (destinationObject sync item.relativePath) = none := by
  obtain ⟨runItem, hrunMem, hrun⟩ := forall₂_exists_right (prepareSyncRunPlan_ok hprepare).2.1
    (List.mem_filter.mpr ⟨hitem, haction⟩)
  have hop : StoreOp.remove runItem.destination ∈ runPlan.operations :=
    List.mem_append_right _ (List.mem_map_of_mem (f := fun item : SyncRunItem =>
      StoreOp.remove item.destination) hrunMem)
  have hafter := h.applyAll_target hprepare hops hop
  rw [← deleteRunItem_destination h.destination_s3 hrun]
  exact hafter

/-- An address that no transferred or deleted item names keeps its content. -/
theorem after_unplanned {address : TransferEndpoint}
    (hno : ∀ item ∈ (planBetween time source destination mode policy compareMode).items,
      item.action.transfers = true ∨ item.action.deletes = true →
        destinationObject sync item.relativePath ≠ address) :
    StoreOp.applyAll before ops address = before address := by
  refine StoreOp.applyAll_of_not_target ?_ before
  rw [(hops.map StoreOp.target).mem_iff, mem_operations_targets h.destination_s3 hprepare]
  rintro ⟨item, hitem, haction, htarget⟩
  exact hno item hitem haction htarget

/-- An item that neither transfers nor deletes leaves its object as it was. -/
theorem after_kept {item : SyncPlanItem}
    (hitem : item ∈ (planBetween time source destination mode policy compareMode).items)
    (htransfers : item.action.transfers = false) (hdeletes : item.action.deletes = false) :
    StoreOp.applyAll before ops (destinationObject sync item.relativePath) =
      before (destinationObject sync item.relativePath) := by
  refine h.after_unplanned hprepare hops ?_
  intro other hother haction hsame
  have hpath : other.relativePath = item.relativePath := destinationObject_injective sync hsame
  obtain rfl := planBetween_item_unique hitem hother hpath
  simp [htransfers, hdeletes] at haction

/-- After the run the destination shows the transferred paths and the listed paths
that were neither transferred nor deleted. -/
theorem mem_destinationPaths_after {path : Str} :
    path ∈ destinationPaths sync (StoreOp.applyAll before ops) ↔
      (∃ item ∈ (planBetween time source destination mode policy compareMode).items,
        item.relativePath = path ∧ item.action.transfers = true) ∨
      path ∈ pathsOf (listObjectsRecursiveForSync sync.destinationPrefix destination.objects) ∧
        ∀ item ∈ (planBetween time source destination mode policy compareMode).items,
          item.relativePath = path →
            item.action.transfers = false ∧ item.action.deletes = false := by
  constructor
  · rintro ⟨key, hkey, hafter, rfl⟩
    by_cases htarget : ∃ item ∈ (planBetween time source destination mode policy compareMode).items,
        (item.action.transfers = true ∨ item.action.deletes = true) ∧
          destinationObject sync item.relativePath =
            .s3 sync.destinationConnectionId sync.destinationBucket key
    · obtain ⟨item, hitem, haction, haddress⟩ := htarget
      rw [← haddress] at hafter
      rcases haction with htransfers | hdeletes
      · obtain ⟨listed, hlisted, hpath⟩ := listed_of_transfer hitem htransfers
        have hhead := EndpointContents.listed_head? hlisted
        rw [hpath] at hhead
        have hjoin : joinS3Key sync.destinationPrefix item.relativePath = key :=
          (TransferEndpoint.s3.inj haddress).2.2
        refine .inl ⟨item, hitem, ?_, htransfers⟩
        rw [← hjoin, listedPath_joinS3Key _ hhead]
      · rw [h.after_delete hprepare hops hitem hdeletes] at hafter
        simp at hafter
    · have hsame : StoreOp.applyAll before ops
          (.s3 sync.destinationConnectionId sync.destinationBucket key) =
            before (.s3 sync.destinationConnectionId sync.destinationBucket key) :=
        h.after_unplanned hprepare hops fun item hitem haction haddress =>
          htarget ⟨item, hitem, haction, haddress⟩
      rw [hsame, h.destination_stored key hkey] at hafter
      obtain ⟨info, hinfo, rfl⟩ := hafter
      refine .inr ⟨⟨info.toSyncObject sync.destinationPrefix, List.mem_map_of_mem hinfo, rfl⟩, ?_⟩
      intro item hitem hpath
      have hrebuilt := h.destination_rebuilt info hinfo
      rw [buildTransferEndpoint_destination h.destination_s3, ← hpath] at hrebuilt
      have hno := fun haction => htarget ⟨item, hitem, haction, Except.ok.inj hrebuilt⟩
      simpa using hno
  · rintro (⟨item, hitem, rfl, htransfers⟩ | ⟨⟨object, hobject, rfl⟩, hkept⟩)
    · obtain ⟨listed, hlisted, hpath⟩ := listed_of_transfer hitem htransfers
      have hhead := EndpointContents.listed_head? hlisted
      rw [hpath] at hhead
      refine ⟨_, isPrefix_joinS3Key _ _, ?_, listedPath_joinS3Key _ hhead⟩
      have hafter := h.after_transfer hprepare hops hitem htransfers hlisted hpath
      unfold destinationObject at hafter
      rw [hafter]
      exact h.source_stored listed hlisted
    · obtain ⟨info, hinfo, rfl⟩ := List.mem_map.mp hobject
      refine ⟨info.key, destination.under info hinfo, ?_, rfl⟩
      have hrebuilt := h.destination_rebuilt info hinfo
      rw [buildTransferEndpoint_destination h.destination_s3] at hrebuilt
      have haddress := Except.ok.inj hrebuilt
      have hsame : StoreOp.applyAll before ops
          (.s3 sync.destinationConnectionId sync.destinationBucket info.key) =
            before (.s3 sync.destinationConnectionId sync.destinationBucket info.key) := by
        refine h.after_unplanned hprepare hops ?_
        intro item hitem haction hitemAddress
        rw [← haddress] at hitemAddress
        have hno := hkept item hitem (destinationObject_injective sync hitemAddress)
        simp [hno.1, hno.2] at haction
      rw [hsame, h.destination_stored _ (destination.under info hinfo)]
      exact ⟨info, hinfo, rfl⟩

/-- A source path whose item is written or found identical is shown afterwards. -/
theorem source_path_shown {item : SyncPlanItem} {listed : ListedObject}
    (hitem : item ∈ (planBetween time source destination mode policy compareMode).items)
    (hlisted : listed ∈ source.listed time)
    (hpath : item.relativePath = listed.object.relativePath)
    (haction : item.action.transfers = true ∨ item.action = .skip) :
    listed.object.relativePath ∈ destinationPaths sync (StoreOp.applyAll before ops) := by
  rw [h.mem_destinationPaths_after hprepare hops]
  rcases haction with htransfers | hskip
  · exact .inl ⟨item, hitem, hpath, htransfers⟩
  · obtain ⟨hs, hd, hdecision⟩ := buildSyncPlan_item_spec hitem
    have hsource : item.source.isSome := by
      rw [hs]
      exact insertAll_isSome_iff.mpr ⟨_, List.mem_map_of_mem hlisted, hpath.symm⟩
    have hdestination : item.destination.isSome := by
      obtain ⟨object, hobject⟩ := Option.isSome_iff_exists.mp hsource
      cases hnone : item.destination with
      | some existing => rfl
      | none => simp [hobject, hnone, planDecision, hskip] at hdecision
    refine .inr ⟨?_, ?_⟩
    · rw [hd] at hdestination
      rw [← hpath]
      exact insertAll_isSome_iff.mp hdestination
    · intro other hother hotherPath
      obtain rfl := planBetween_item_unique hitem hother (hotherPath.trans hpath.symm)
      simp [hskip, SyncPlanAction.transfers, SyncPlanAction.deletes]

theorem converges (hmode : mode = .sync) (hover : policy.overwriteChanged = true)
    (hextras : policy.deleteExtras = true)
    (hnewer : policy.destinationNewerPolicy = .sourceWins) :
    destinationPaths sync (StoreOp.applyAll before ops) = pathsOf (source.listing time) ∧
      ∀ listed ∈ source.listed time,
        ∃ item ∈ (planBetween time source destination mode policy compareMode).items,
          item.relativePath = listed.object.relativePath ∧
          (item.action.transfers = true ∧
              StoreOp.applyAll before ops (destinationObject sync item.relativePath) =
                before listed.address ∨
            item.action = .skip ∧ item.reason = .identical ∧
              StoreOp.applyAll before ops (destinationObject sync item.relativePath) =
                before (destinationObject sync item.relativePath)) := by
  have hsync : mode ≠ .copy := by simp [hmode]
  have hdecided : ∀ listed ∈ source.listed time,
      ∃ item ∈ (planBetween time source destination mode policy compareMode).items,
        item.relativePath = listed.object.relativePath ∧
        (item.action.transfers = true ∨ item.action = .skip ∧ item.reason = .identical) := by
    intro listed hlisted
    obtain ⟨item, hitem, hpath, object, -, hdecision⟩ := planBetween_source_item hlisted
    refine ⟨item, hitem, hpath, ?_⟩
    cases hd : item.destination with
    | none =>
        have haction : item.action = .create := by simp_all [planDecision]
        exact .inl (by simp [haction, SyncPlanAction.transfers])
    | some existing =>
        rw [hd] at hdecision
        exact planDecision_writes_or_identical hover hnewer hsync hdecision
  constructor
  · ext path
    constructor
    · intro hshown
      rcases (h.mem_destinationPaths_after hprepare hops).mp hshown with
        ⟨item, hitem, rfl, htransfers⟩ | ⟨hlisted, hkept⟩
      · obtain ⟨listed, hmem, hpath⟩ := listed_of_transfer hitem htransfers
        exact ⟨listed.object, List.mem_map_of_mem hmem, hpath⟩
      · -- a destination-only path would have been deleted
        by_contra hnot
        have hdelete : ∃ item ∈
            (planBetween time source destination mode policy compareMode).items,
              item.action = .delete ∧ item.relativePath = path :=
          buildSyncPlan_deletes_iff.mpr
            ⟨hsync, hextras, hlisted, fun object hobject hsame => hnot ⟨object, hobject, hsame⟩⟩
        obtain ⟨item, hitem, haction, hpath⟩ := hdelete
        have hno := (hkept item hitem hpath).2
        simp [haction, SyncPlanAction.deletes] at hno
    · rintro ⟨object, hobject, rfl⟩
      obtain ⟨listed, hlisted, rfl⟩ := List.mem_map.mp hobject
      obtain ⟨item, hitem, hpath, haction⟩ := hdecided listed hlisted
      exact h.source_path_shown hprepare hops hitem hlisted hpath
        (haction.imp_right And.left)
  · intro listed hlisted
    obtain ⟨item, hitem, hpath, haction⟩ := hdecided listed hlisted
    refine ⟨item, hitem, hpath, ?_⟩
    rcases haction with htransfers | ⟨hskip, hreason⟩
    · exact .inl ⟨htransfers, h.after_transfer hprepare hops hitem htransfers hlisted hpath.symm⟩
    · exact .inr ⟨hskip, hreason, h.after_kept hprepare hops hitem
        (by simp [hskip, SyncPlanAction.transfers]) (by simp [hskip, SyncPlanAction.deletes])⟩

theorem copies (hmode : mode = .copy) :
    destinationPaths sync (StoreOp.applyAll before ops) =
        pathsOf (source.listing time) ∪
          pathsOf (listObjectsRecursiveForSync sync.destinationPrefix destination.objects) ∧
      ∀ path ∈ pathsOf (listObjectsRecursiveForSync sync.destinationPrefix destination.objects) \
          pathsOf (source.listing time),
        StoreOp.applyAll before ops (destinationObject sync path) =
          before (destinationObject sync path) := by
  subst hmode
  have hnodelete : ∀ item ∈ (planBetween time source destination .copy policy compareMode).items,
      item.action.deletes = false := by
    intro item hitem
    obtain ⟨-, -, hdecision⟩ := buildSyncPlan_item_spec hitem
    by_contra hdeletes
    have hdelete : item.action = .delete := by
      cases ha : item.action <;> simp_all [SyncPlanAction.deletes]
    rw [hdelete, planDecision_delete_iff] at hdecision
    exact hdecision.2.2.1 rfl
  have hextra : ∀ item ∈ (planBetween time source destination .copy policy compareMode).items,
      item.relativePath ∉ pathsOf (source.listing time) → item.action.transfers = false := by
    intro item hitem hnot
    by_contra htransfers
    obtain ⟨listed, hlisted, hpath⟩ := listed_of_transfer hitem (by simpa using htransfers)
    exact hnot ⟨listed.object, List.mem_map_of_mem hlisted, hpath⟩
  constructor
  · ext path
    constructor
    · intro hshown
      rcases (h.mem_destinationPaths_after hprepare hops).mp hshown with
        ⟨item, hitem, rfl, htransfers⟩ | ⟨hlisted, -⟩
      · obtain ⟨listed, hmem, hpath⟩ := listed_of_transfer hitem htransfers
        exact .inl ⟨listed.object, List.mem_map_of_mem hmem, hpath⟩
      · exact .inr hlisted
    · intro hpath
      by_cases hsource : path ∈ pathsOf (source.listing time)
      · obtain ⟨object, hobject, rfl⟩ := hsource
        obtain ⟨listed, hlisted, rfl⟩ := List.mem_map.mp hobject
        obtain ⟨item, hitem, hitemPath, object, -, hdecision⟩ := planBetween_source_item hlisted
        refine h.source_path_shown hprepare hops hitem hlisted hitemPath ?_
        cases hd : item.destination with
        | none =>
            have haction : item.action = .create := by simp_all [planDecision]
            exact .inl (by simp [haction, SyncPlanAction.transfers])
        | some existing =>
            rw [hd] at hdecision
            exact planDecision_copy_writes_or_skips hdecision
      · rw [h.mem_destinationPaths_after hprepare hops]
        refine .inr ⟨hpath.resolve_left hsource, ?_⟩
        rintro item hitem rfl
        exact ⟨hextra item hitem hsource, hnodelete item hitem⟩
  · rintro path ⟨-, hsource⟩
    refine h.after_unplanned hprepare hops ?_
    intro item hitem haction hsame
    have hpath := destinationObject_injective sync hsame
    have htransfers := hextra item hitem (hpath ▸ hsource)
    simp [htransfers, hnodelete item hitem] at haction

end Reconcilable

end Run

/-- The plan of two reconcilable listings has a run plan without repeated targets,
and every order of its transfers and deletes reconciles the destination. -/
theorem run_reconciles (platform : Platform) (time : TimeCodec) (sync : SyncState)
    (source : EndpointContents platform (syncEndpointParams sync true))
    (destination : BucketListing sync.destinationPrefix)
    (before : Store TransferEndpoint Content) (mode : SyncMode) (policy : SyncPolicy)
    (compareMode : SyncCompareMode)
    (h : Reconcilable platform time sync source destination before) :
    ∃ runPlan, prepareSyncRunPlan platform sync
        (planBetween time source destination mode policy compareMode) = .ok runPlan ∧
      (runPlan.operations.map StoreOp.target).Nodup ∧
      ∀ ops, ops.Perm runPlan.operations →
        Reconciled time sync source
          (listObjectsRecursiveForSync sync.destinationPrefix destination.objects) mode policy
          (planBetween time source destination mode policy compareMode) before
          (StoreOp.applyAll before ops) := by
  obtain ⟨runPlan, hprepare⟩ := h.prepare_isOk mode policy compareMode
  refine ⟨runPlan, hprepare, ?_, ?_⟩
  · exact nodup_operations_targets h.destination_s3 (nodup_buildSyncPlan_paths _ _ _ _ _) hprepare
  · intro ops hops
    exact {
      converges := h.converges hprepare hops
      copies := h.copies hprepare hops
      unplanned := fun _ => h.after_unplanned hprepare hops }

/-! ## Two buckets of one server -/

def twoBuckets : SyncState := .betweenBuckets "photos".toList "backup".toList

def photosBucket : EndpointContents .unix (syncEndpointParams twoBuckets true) :=
  .s3 rfl ⟨[⟨"a".toList, 1, [], []⟩], by decide⟩

def backupBucket : BucketListing twoBuckets.destinationPrefix :=
  ⟨[⟨"b".toList, 2, [], []⟩], by decide⟩

def twoBucketStore : Store TransferEndpoint Nat := fun address =>
  if address = .s3 CURRENT_CONNECTION_ID "photos".toList "a".toList then some 1
  else if address = .s3 CURRENT_CONNECTION_ID "backup".toList "b".toList then some 2
  else none

theorem twoBuckets_reconcilable :
    Reconcilable .unix noTimes twoBuckets photosBucket backupBucket twoBucketStore where
  destination_s3 := rfl
  source_rebuilt := by decide
  destination_rebuilt := by decide
  source_distinct := by decide
  destination_distinct := by decide
  source_stored := by decide
  destination_stored := by
    intro key _
    by_cases hkey : key = "b".toList
    · subst hkey
      decide
    · have hne : "b".toList ≠ key := Ne.symm hkey
      have hlisted : ¬ ∃ info ∈ backupBucket.objects, info.key = key := by
        simpa [backupBucket] using hne
      have habsent : twoBucketStore
          (.s3 twoBuckets.destinationConnectionId twoBuckets.destinationBucket key) = none := by
        unfold twoBucketStore
        rw [if_neg, if_neg]
        · exact fun e => hkey (TransferEndpoint.s3.inj e).2.2
        · exact fun e => absurd (TransferEndpoint.s3.inj e).2.1 (by decide)
      simp [habsent, hlisted]
  disjoint := by
    intro listed hlisted path
    have hbucket : listed.address = .s3 CURRENT_CONNECTION_ID "photos".toList "a".toList := by
      revert listed
      decide
    rw [buildTransferEndpoint_destination rfl, hbucket]
    exact fun e => absurd (TransferEndpoint.s3.inj (Except.ok.inj e)).2.1 (by decide)

theorem run_reconciles_twoBuckets :
    ∃ runPlan, prepareSyncRunPlan .unix twoBuckets
        (planBetween noTimes photosBucket backupBucket .sync SyncPreset.converge.policy
          .sizeAndModTime) = .ok runPlan ∧
      (runPlan.operations.map StoreOp.target).Nodup ∧
      ∀ ops, ops.Perm runPlan.operations →
        Reconciled noTimes twoBuckets photosBucket
          (listObjectsRecursiveForSync twoBuckets.destinationPrefix backupBucket.objects) .sync
          SyncPreset.converge.policy
          (planBetween noTimes photosBucket backupBucket .sync SyncPreset.converge.policy
            .sizeAndModTime) twoBucketStore (StoreOp.applyAll twoBucketStore ops) :=
  run_reconciles .unix noTimes twoBuckets photosBucket backupBucket twoBucketStore .sync
    SyncPreset.converge.policy .sizeAndModTime twoBuckets_reconcilable

end AbixioUi
