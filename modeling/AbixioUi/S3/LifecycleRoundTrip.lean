import AbixioUi.S3.LifecycleXml

/-! # Saving a lifecycle document as it was shown

A configuration that was turned into a document and back is the same configuration,
and a document that was accepted and shown again is the same document up to its
namespace and the spelling of its dates. Both directions go record by record.
-/

namespace AbixioUi.Lifecycle

open Foundation

variable {sdk : Sdk}

/-! ## Dates and enumerations -/

theorem roundTrips_date {instant : sdk.dateTime.DateTime}
    (h : ∃ text, sdk.dateTime.format instant = .ok text) :
    RoundTrips formatDatetime parseDatetime instant instant := by
  obtain ⟨text, htext⟩ := h
  exact ⟨text, htext, sdk.dateTime.parse_format instant text htext⟩

/-- The text that a date is shown as once it was read. -/
def normalDate (sdk : Sdk) (text : Str) : Str :=
  match sdk.dateTime.parse text with
  | .error _ => text
  | .ok instant =>
      match sdk.dateTime.format instant with
      | .error _ => text
      | .ok normal => normal

theorem roundTrips_dateText {text : Str}
    (h : ∃ instant, sdk.dateTime.parse text = .ok instant) :
    RoundTrips (@parseDatetime sdk) formatDatetime text (normalDate sdk text) := by
  obtain ⟨instant, hinstant⟩ := h
  obtain ⟨normal, hnormal⟩ := sdk.dateTime.format_of_parse text instant hinstant
  refine ⟨instant, hinstant, ?_⟩
  simp only [formatDatetime, normalDate, hinstant, hnormal]

/-- The normal form of a date names the same instant, and is its own normal form. -/
theorem normalDate_normal {text : Str} {instant : sdk.dateTime.DateTime}
    (h : sdk.dateTime.parse text = .ok instant) :
    sdk.dateTime.parse (normalDate sdk text) = .ok instant ∧
      normalDate sdk (normalDate sdk text) = normalDate sdk text := by
  obtain ⟨normal, hnormal⟩ := sdk.dateTime.format_of_parse text instant h
  have hshown : normalDate sdk text = normal := by simp only [normalDate, h, hnormal]
  have hparse := sdk.dateTime.parse_format instant normal hnormal
  refine ⟨by rw [hshown, hparse], ?_⟩
  rw [hshown]
  simp only [normalDate, hparse, hnormal]

theorem transpose_tryParse_asStr (enumeration : SdkEnum) {o : Option enumeration.Value}
    (h : ∀ value, o = some value → enumeration.Known value) :
    transpose ((o.map enumeration.asStr).map enumeration.tryParse) = .ok o := by
  cases o with
  | none => rfl
  | some value => simp [transpose, enumeration.tryParse_asStr value (h value rfl)]

theorem map_asStr_of_transpose (enumeration : SdkEnum) {o : Option Str}
    {values : Option enumeration.Value}
    (h : transpose (o.map enumeration.tryParse) = .ok values) :
    values.map enumeration.asStr = o := by
  cases o with
  | none =>
      obtain rfl : none = values := Except.ok.inj h
      rfl
  | some text =>
      cases hparse : enumeration.tryParse text with
      | error e => simp [transpose, hparse] at h
      | ok value =>
          simp only [Option.map_some, transpose, hparse, Except.ok.injEq] at h
          subst h
          rw [Option.map_some, enumeration.asStr_of_tryParse text value hparse]

/-! ## Configurations that can be shown -/

/-- The storage class is known. -/
def NoncurrentVersionTransition.Savable (transition : NoncurrentVersionTransition sdk) : Prop :=
  ∀ value, transition.storageClass = some value → sdk.transitionStorageClass.Known value

/-- The storage class is known and the date has a text. -/
def Transition.Savable (transition : Transition sdk) : Prop :=
  (∀ value, transition.storageClass = some value → sdk.transitionStorageClass.Known value) ∧
    ∀ instant, transition.date = some instant → ∃ text, sdk.dateTime.format instant = .ok text

/-- The date has a text. -/
def LifecycleExpiration.Savable (expiration : LifecycleExpiration sdk) : Prop :=
  ∀ instant, expiration.date = some instant → ∃ text, sdk.dateTime.format instant = .ok text

/-- Every enumeration value of the rule is known, and every date has a text. -/
structure LifecycleRule.Savable (rule : LifecycleRule sdk) : Prop where
  status : sdk.expirationStatus.Known rule.status
  expiration : ∀ expiration, rule.expiration = some expiration → expiration.Savable
  transitions : ∀ transition ∈ rule.transitions.getD [], transition.Savable
  noncurrentVersionTransitions :
    ∀ transition ∈ rule.noncurrentVersionTransitions.getD [], transition.Savable

def BucketLifecycleConfiguration.Savable (config : BucketLifecycleConfiguration sdk) : Prop :=
  ∀ rule ∈ config.rules, rule.Savable

/-! ## Empty lists

An empty list counts as an absent one; these are the configurations with the empty
lists left out.
-/

def LifecycleRuleAndOperator.withoutEmpty (and : LifecycleRuleAndOperator) :
    LifecycleRuleAndOperator :=
  { and with tags := absentIfEmpty and.tags }

def LifecycleRuleFilter.withoutEmpty (filter : LifecycleRuleFilter) : LifecycleRuleFilter :=
  { filter with and := filter.and.map LifecycleRuleAndOperator.withoutEmpty }

def LifecycleRule.withoutEmpty (rule : LifecycleRule sdk) : LifecycleRule sdk :=
  { rule with
    filter := rule.filter.map LifecycleRuleFilter.withoutEmpty
    transitions := absentIfEmpty rule.transitions
    noncurrentVersionTransitions := absentIfEmpty rule.noncurrentVersionTransitions }

def BucketLifecycleConfiguration.withoutEmpty (config : BucketLifecycleConfiguration sdk) :
    BucketLifecycleConfiguration sdk :=
  { rules := config.rules.map LifecycleRule.withoutEmpty }

/-! ## From a configuration and back -/

theorem tag_roundTrips (tag : Tag) : RoundTrips TagXml.fromSdk TagXml.intoSdk tag tag :=
  ⟨_, rfl, rfl⟩

theorem abort_roundTrips (upload : AbortIncompleteMultipartUpload) :
    RoundTrips AbortIncompleteMultipartUploadXml.fromSdk AbortIncompleteMultipartUploadXml.intoSdk
      upload upload :=
  ⟨_, rfl, rfl⟩

theorem noncurrentVersionExpiration_roundTrips (expiration : NoncurrentVersionExpiration) :
    RoundTrips NoncurrentVersionExpirationXml.fromSdk NoncurrentVersionExpirationXml.intoSdk
      expiration expiration :=
  ⟨_, rfl, rfl⟩

theorem noncurrentVersionTransition_roundTrips {transition : NoncurrentVersionTransition sdk}
    (h : transition.Savable) :
    RoundTrips NoncurrentVersionTransitionXml.fromSdk NoncurrentVersionTransitionXml.intoSdk
      transition transition := by
  have hclass : transpose ((transition.storageClass.map sdk.transitionStorageClass.asStr).map
      parseTransitionStorageClass) = .ok transition.storageClass :=
    transpose_tryParse_asStr sdk.transitionStorageClass h
  refine ⟨_, rfl, ?_⟩
  unfold NoncurrentVersionTransitionXml.intoSdk
  rw [hclass]
  rfl

theorem transition_roundTrips {transition : Transition sdk} (h : transition.Savable) :
    RoundTrips TransitionXml.fromSdk TransitionXml.intoSdk transition transition := by
  have hclass : transpose ((transition.storageClass.map sdk.transitionStorageClass.asStr).map
      parseTransitionStorageClass) = .ok transition.storageClass :=
    transpose_tryParse_asStr sdk.transitionStorageClass h.1
  obtain ⟨date, hshown, hread⟩ := RoundTrips.option_self fun instant hinstant =>
    roundTrips_date (h.2 instant hinstant)
  refine ⟨⟨date, transition.days, transition.storageClass.map sdk.transitionStorageClass.asStr⟩,
    ?_, ?_⟩
  · rw [TransitionXml.fromSdk, hshown]
    rfl
  · rw [TransitionXml.intoSdk]
    simp only [hread, hclass]
    rfl

theorem expiration_roundTrips {expiration : LifecycleExpiration sdk} (h : expiration.Savable) :
    RoundTrips LifecycleExpirationXml.fromSdk LifecycleExpirationXml.intoSdk
      expiration expiration := by
  obtain ⟨date, hshown, hread⟩ := RoundTrips.option_self fun instant hinstant =>
    roundTrips_date (h instant hinstant)
  refine ⟨⟨date, expiration.days, expiration.expiredObjectDeleteMarker⟩, ?_, ?_⟩
  · rw [LifecycleExpirationXml.fromSdk, hshown]
    rfl
  · rw [LifecycleExpirationXml.intoSdk, hread]
    rfl

theorem and_roundTrips (and : LifecycleRuleAndOperator) :
    RoundTrips LifecycleRuleAndOperatorXml.fromSdk LifecycleRuleAndOperatorXml.intoSdk
      and and.withoutEmpty := by
  obtain ⟨tags, hshown, hread⟩ := @RoundTrips.optionalList_self _ _ _ _ _ and.tags
    fun tag _ => tag_roundTrips tag
  refine ⟨⟨and.keyPrefix, tags, and.objectSizeGreaterThan, and.objectSizeLessThan⟩, ?_, ?_⟩
  · rw [LifecycleRuleAndOperatorXml.fromSdk, hshown]
    rfl
  · rw [LifecycleRuleAndOperatorXml.intoSdk, hread]
    rfl

theorem filter_roundTrips (filter : LifecycleRuleFilter) :
    RoundTrips LifecycleRuleFilterXml.fromSdk LifecycleRuleFilterXml.intoSdk
      filter filter.withoutEmpty := by
  obtain ⟨tag, htagShown, htagRead⟩ := @RoundTrips.option_self _ _ _ _ _ filter.tag
    fun tag _ => tag_roundTrips tag
  obtain ⟨and, handShown, handRead⟩ := @RoundTrips.option _ _ _ _ _ _ _ filter.and
    fun and _ => and_roundTrips and
  refine ⟨⟨filter.keyPrefix, tag, filter.objectSizeGreaterThan, filter.objectSizeLessThan, and⟩,
    ?_, ?_⟩
  · rw [LifecycleRuleFilterXml.fromSdk, htagShown, handShown]
    rfl
  · rw [LifecycleRuleFilterXml.intoSdk, htagRead, handRead]
    rfl

theorem rule_roundTrips {rule : LifecycleRule sdk} (h : rule.Savable) :
    RoundTrips LifecycleRuleXml.fromSdk LifecycleRuleXml.intoSdk rule rule.withoutEmpty := by
  have hstatus : parseExpirationStatus (sdk.expirationStatus.asStr rule.status) =
      .ok rule.status := sdk.expirationStatus.tryParse_asStr _ h.status
  obtain ⟨expiration, hexpirationShown, hexpirationRead⟩ := RoundTrips.option_self
    fun expiration hexpiration => expiration_roundTrips (h.expiration expiration hexpiration)
  obtain ⟨filter, hfilterShown, hfilterRead⟩ := @RoundTrips.option _ _ _ _ _ _ _ rule.filter
    fun filter _ => filter_roundTrips filter
  obtain ⟨transitions, htransitionsShown, htransitionsRead⟩ := RoundTrips.optionalList_self
    fun transition htransition => transition_roundTrips (h.transitions transition htransition)
  obtain ⟨noncurrent, hnoncurrentShown, hnoncurrentRead⟩ := RoundTrips.optionalList_self
    fun transition htransition => noncurrentVersionTransition_roundTrips
      (h.noncurrentVersionTransitions transition htransition)
  obtain ⟨versions, hversionsShown, hversionsRead⟩ :=
    @RoundTrips.option_self _ _ _ _ _ rule.noncurrentVersionExpiration
      fun expiration _ => noncurrentVersionExpiration_roundTrips expiration
  obtain ⟨abort, habortShown, habortRead⟩ :=
    @RoundTrips.option_self _ _ _ _ _ rule.abortIncompleteMultipartUpload
      fun upload _ => abort_roundTrips upload
  refine ⟨⟨expiration, rule.id, rule.keyPrefix, filter, sdk.expirationStatus.asStr rule.status,
    transitions, noncurrent, versions, abort⟩, ?_, ?_⟩
  · rw [LifecycleRuleXml.fromSdk, hexpirationShown, hfilterShown, htransitionsShown,
      hnoncurrentShown, hversionsShown, habortShown]
    rfl
  · rw [LifecycleRuleXml.intoSdk]
    simp only [hstatus, hexpirationRead, hfilterRead, htransitionsRead, hnoncurrentRead,
      hversionsRead, habortRead]
    rfl

theorem configuration_roundTrips {config : BucketLifecycleConfiguration sdk}
    (h : config.Savable)
    {size : Option sdk.transitionDefaultMinimumObjectSize.Value}
    (hsize : ∀ value, size = some value → sdk.transitionDefaultMinimumObjectSize.Known value) :
    ∃ xml, LifecycleConfigurationXml.fromSdk config size = .ok xml ∧
      xml.intoSdk = .ok (config.withoutEmpty, size) := by
  have hread : transpose ((size.map sdk.transitionDefaultMinimumObjectSize.asStr).map
      parseTransitionDefaultMinimumObjectSize) = .ok size :=
    transpose_tryParse_asStr sdk.transitionDefaultMinimumObjectSize hsize
  obtain ⟨rules, hrulesShown, hrulesRead⟩ := RoundTrips.list fun rule hrule =>
    rule_roundTrips (h rule hrule)
  refine ⟨⟨some S3_LIFECYCLE_XMLNS, rules,
    size.map sdk.transitionDefaultMinimumObjectSize.asStr⟩, ?_, ?_⟩
  · rw [LifecycleConfigurationXml.fromSdk, hrulesShown]
    rfl
  · rw [LifecycleConfigurationXml.intoSdk, hrulesRead]
    simp only [hread]
    rfl

/-! ## From a document and back

The document as it is shown again: its dates in normal form, in the namespace of the
service.
-/

def TransitionXml.normal (sdk : Sdk) (transition : TransitionXml) : TransitionXml :=
  { transition with date := transition.date.map (normalDate sdk) }

def LifecycleExpirationXml.normal (sdk : Sdk) (expiration : LifecycleExpirationXml) :
    LifecycleExpirationXml :=
  { expiration with date := expiration.date.map (normalDate sdk) }

def LifecycleRuleXml.normal (sdk : Sdk) (rule : LifecycleRuleXml) : LifecycleRuleXml :=
  { rule with
    expiration := rule.expiration.map (LifecycleExpirationXml.normal sdk)
    transitions := rule.transitions.map (TransitionXml.normal sdk) }

def LifecycleConfigurationXml.normal (sdk : Sdk) (xml : LifecycleConfigurationXml) :
    LifecycleConfigurationXml :=
  { xml with
    xmlns := some S3_LIFECYCLE_XMLNS
    rules := xml.rules.map (LifecycleRuleXml.normal sdk) }

theorem tagXml_roundTrips (tag : TagXml) : RoundTrips TagXml.intoSdk TagXml.fromSdk tag tag :=
  ⟨_, rfl, rfl⟩

theorem abortXml_roundTrips (upload : AbortIncompleteMultipartUploadXml) :
    RoundTrips AbortIncompleteMultipartUploadXml.intoSdk AbortIncompleteMultipartUploadXml.fromSdk
      upload upload :=
  ⟨_, rfl, rfl⟩

theorem noncurrentVersionExpirationXml_roundTrips (expiration : NoncurrentVersionExpirationXml) :
    RoundTrips NoncurrentVersionExpirationXml.intoSdk NoncurrentVersionExpirationXml.fromSdk
      expiration expiration :=
  ⟨_, rfl, rfl⟩

theorem noncurrentVersionTransitionXml_roundTrips {transition : NoncurrentVersionTransitionXml}
    (h : ∃ accepted : NoncurrentVersionTransition sdk, transition.intoSdk = .ok accepted) :
    RoundTrips (@NoncurrentVersionTransitionXml.intoSdk sdk)
      NoncurrentVersionTransitionXml.fromSdk transition transition := by
  obtain ⟨accepted, haccepted⟩ := h
  obtain ⟨storageClass, hclass, hrest⟩ := bind_eq_ok haccepted
  obtain rfl := Except.ok.inj hrest
  refine ⟨_, haccepted, ?_⟩
  have hshown : storageClass.map sdk.transitionStorageClass.asStr = transition.storageClass :=
    map_asStr_of_transpose sdk.transitionStorageClass hclass
  simp only [NoncurrentVersionTransitionXml.fromSdk, hshown]

theorem transitionXml_roundTrips {transition : TransitionXml}
    (h : ∃ accepted : Transition sdk, transition.intoSdk = .ok accepted) :
    RoundTrips (@TransitionXml.intoSdk sdk) TransitionXml.fromSdk
      transition (transition.normal sdk) := by
  obtain ⟨accepted, haccepted⟩ := h
  obtain ⟨date, hdate, hrest⟩ := bind_eq_ok haccepted
  obtain ⟨storageClass, hclass, hrest⟩ := bind_eq_ok hrest
  obtain rfl := Except.ok.inj hrest
  refine ⟨_, haccepted, ?_⟩
  have hshown : storageClass.map sdk.transitionStorageClass.asStr = transition.storageClass :=
    map_asStr_of_transpose sdk.transitionStorageClass hclass
  obtain ⟨date', hdate', hdateShown⟩ := RoundTrips.option fun text htext =>
    roundTrips_dateText (transpose_map_ok hdate text htext)
  obtain rfl : date = date' := Except.ok.inj (hdate.symm.trans hdate')
  rw [TransitionXml.fromSdk]
  simp only [hdateShown, hshown]
  rfl

theorem expirationXml_roundTrips {expiration : LifecycleExpirationXml}
    (h : ∃ accepted : LifecycleExpiration sdk, expiration.intoSdk = .ok accepted) :
    RoundTrips (@LifecycleExpirationXml.intoSdk sdk) LifecycleExpirationXml.fromSdk
      expiration (expiration.normal sdk) := by
  obtain ⟨accepted, haccepted⟩ := h
  obtain ⟨date, hdate, hrest⟩ := bind_eq_ok haccepted
  obtain rfl := Except.ok.inj hrest
  refine ⟨_, haccepted, ?_⟩
  obtain ⟨date', hdate', hdateShown⟩ := RoundTrips.option fun text htext =>
    roundTrips_dateText (transpose_map_ok hdate text htext)
  obtain rfl : date = date' := Except.ok.inj (hdate.symm.trans hdate')
  rw [LifecycleExpirationXml.fromSdk]
  simp only [hdateShown]
  rfl

theorem andXml_roundTrips (and : LifecycleRuleAndOperatorXml) :
    RoundTrips LifecycleRuleAndOperatorXml.intoSdk LifecycleRuleAndOperatorXml.fromSdk and and := by
  obtain ⟨tags, haccepted, hshown⟩ := @RoundTrips.storedList_self _ _ _ _ _ and.tags
    fun tag _ => tagXml_roundTrips tag
  refine ⟨⟨and.keyPrefix, tags, and.objectSizeGreaterThan, and.objectSizeLessThan⟩, ?_, ?_⟩
  · rw [LifecycleRuleAndOperatorXml.intoSdk, haccepted]
    rfl
  · rw [LifecycleRuleAndOperatorXml.fromSdk, hshown]
    rfl

theorem filterXml_roundTrips (filter : LifecycleRuleFilterXml) :
    RoundTrips LifecycleRuleFilterXml.intoSdk LifecycleRuleFilterXml.fromSdk filter filter := by
  obtain ⟨tag, htagAccepted, htagShown⟩ := @RoundTrips.option_self _ _ _ _ _ filter.tag
    fun tag _ => tagXml_roundTrips tag
  obtain ⟨and, handAccepted, handShown⟩ := @RoundTrips.option_self _ _ _ _ _ filter.and
    fun and _ => andXml_roundTrips and
  refine ⟨⟨filter.keyPrefix, tag, filter.objectSizeGreaterThan, filter.objectSizeLessThan, and⟩,
    ?_, ?_⟩
  · rw [LifecycleRuleFilterXml.intoSdk, htagAccepted, handAccepted]
    rfl
  · rw [LifecycleRuleFilterXml.fromSdk, htagShown, handShown]
    rfl

theorem ruleXml_roundTrips {rule : LifecycleRuleXml}
    (h : ∃ accepted : LifecycleRule sdk, rule.intoSdk = .ok accepted) :
    RoundTrips (@LifecycleRuleXml.intoSdk sdk) LifecycleRuleXml.fromSdk
      rule (rule.normal sdk) := by
  obtain ⟨accepted, haccepted⟩ := h
  obtain ⟨status, hstatus, hrest⟩ := bind_eq_ok haccepted
  obtain ⟨expiration, hexpiration, hrest⟩ := bind_eq_ok hrest
  obtain ⟨filter, hfilter, hrest⟩ := bind_eq_ok hrest
  obtain ⟨transitions, htransitions, hrest⟩ := bind_eq_ok hrest
  obtain ⟨noncurrent, hnoncurrent, hrest⟩ := bind_eq_ok hrest
  obtain ⟨versions, hversions, hrest⟩ := bind_eq_ok hrest
  obtain ⟨abort, habort, hrest⟩ := bind_eq_ok hrest
  obtain rfl := Except.ok.inj hrest
  refine ⟨_, haccepted, ?_⟩
  have hstatusShown : sdk.expirationStatus.asStr status = rule.status :=
    sdk.expirationStatus.asStr_of_tryParse _ _ hstatus
  obtain ⟨_, hread, hexpirationShown⟩ := RoundTrips.option fun text htext =>
    expirationXml_roundTrips (transpose_map_ok hexpiration text htext)
  obtain rfl := Except.ok.inj (hexpiration.symm.trans hread)
  obtain ⟨_, hread, hfilterShown⟩ := @RoundTrips.option_self _ _ _ _ _ rule.filter
    fun filter _ => filterXml_roundTrips filter
  obtain rfl := Except.ok.inj (hfilter.symm.trans hread)
  obtain ⟨_, hread, htransitionsShown⟩ := RoundTrips.storedList fun transition htransition =>
    transitionXml_roundTrips (collectNonempty_map_ok htransitions transition htransition)
  obtain rfl := Except.ok.inj (htransitions.symm.trans hread)
  obtain ⟨_, hread, hnoncurrentShown⟩ := RoundTrips.storedList_self fun transition htransition =>
    noncurrentVersionTransitionXml_roundTrips
      (collectNonempty_map_ok hnoncurrent transition htransition)
  obtain rfl := Except.ok.inj (hnoncurrent.symm.trans hread)
  obtain ⟨_, hread, hversionsShown⟩ :=
    @RoundTrips.option_self _ _ _ _ _ rule.noncurrentVersionExpiration
      fun expiration _ => noncurrentVersionExpirationXml_roundTrips expiration
  obtain rfl := Except.ok.inj (hversions.symm.trans hread)
  obtain ⟨_, hread, habortShown⟩ :=
    @RoundTrips.option_self _ _ _ _ _ rule.abortIncompleteMultipartUpload
      fun upload _ => abortXml_roundTrips upload
  obtain rfl := Except.ok.inj (habort.symm.trans hread)
  rw [LifecycleRuleXml.fromSdk]
  simp only [hexpirationShown, hfilterShown, htransitionsShown, hnoncurrentShown, hversionsShown,
    habortShown, hstatusShown]
  rfl

theorem configurationXml_roundTrips {xml : LifecycleConfigurationXml}
    {config : BucketLifecycleConfiguration sdk}
    {size : Option sdk.transitionDefaultMinimumObjectSize.Value}
    (h : xml.intoSdk = .ok (config, size)) :
    LifecycleConfigurationXml.fromSdk config size = .ok (xml.normal sdk) := by
  obtain ⟨rules, hrules, hrest⟩ := bind_eq_ok h
  obtain ⟨size', hsize, hrest⟩ := bind_eq_ok hrest
  obtain ⟨rfl, rfl⟩ := Prod.mk.inj (Except.ok.inj hrest)
  have hsizeShown : size'.map sdk.transitionDefaultMinimumObjectSize.asStr =
      xml.transitionDefaultMinimumObjectSize :=
    map_asStr_of_transpose sdk.transitionDefaultMinimumObjectSize hsize
  obtain ⟨_, hread, hrulesShown⟩ := RoundTrips.list fun rule hrule =>
    ruleXml_roundTrips (collect_map_ok hrules rule hrule)
  obtain rfl := Except.ok.inj (hrules.symm.trans hread)
  rw [LifecycleConfigurationXml.fromSdk]
  simp only [hrulesShown, hsizeShown]
  rfl

/-! ## Viewing and saving -/

/-- A configuration of known values whose dates have texts is saved as it was, its
empty lists left out, and an accepted document is shown as it was, its dates in
normal form. -/
theorem lifecycle_survives (sdk : Sdk) :
    (∀ (config : BucketLifecycleConfiguration sdk)
        (size : Option sdk.transitionDefaultMinimumObjectSize.Value), config.Savable →
      (∀ value, size = some value → sdk.transitionDefaultMinimumObjectSize.Known value) →
      ∃ xml, LifecycleConfigurationXml.fromSdk config size = .ok xml ∧
        xml.intoSdk = .ok (config.withoutEmpty, size)) ∧
    (∀ (xml : LifecycleConfigurationXml) (config : BucketLifecycleConfiguration sdk)
        (size : Option sdk.transitionDefaultMinimumObjectSize.Value),
      xml.intoSdk = .ok (config, size) →
      LifecycleConfigurationXml.fromSdk config size = .ok (xml.normal sdk)) :=
  ⟨fun _ _ hconfig hsize => configuration_roundTrips hconfig hsize,
    fun _ _ _ h => configurationXml_roundTrips h⟩

/-- Enumeration values with the given texts; any other text is kept as unknown. -/
def enumerationOf (texts : List Str) : SdkEnum where
  Value := Str
  Known := fun text => text ∈ texts
  asStr := fun text => text
  tryParse := fun text => if texts.contains text then .ok text else .error "unknown variant"
  tryParse_asStr := fun _ hknown => if_pos (List.contains_iff_mem.mpr hknown)
  asStr_of_tryParse := by
    intro text value h
    split_ifs at h
    exact (Except.ok.inj h).symm

/-- One day, with and without its fraction of a second. -/
def newYear : DateTimeFormat where
  DateTime := Unit
  parse := fun text =>
    if text = "2026-01-01T00:00:00Z".toList ∨ text = "2026-01-01T00:00:00.000Z".toList then .ok ()
    else .error "invalid date"
  format := fun _ => .ok "2026-01-01T00:00:00Z".toList
  parse_format := by
    intro instant text h
    rw [← Except.ok.inj h]
    rfl
  format_of_parse := fun _ _ _ => ⟨_, rfl⟩

def serviceSdk : Sdk where
  expirationStatus := enumerationOf ["Enabled".toList, "Disabled".toList]
  transitionStorageClass := enumerationOf ["GLACIER".toList, "STANDARD_IA".toList]
  transitionDefaultMinimumObjectSize :=
    enumerationOf ["all_storage_classes_128K".toList, "varies_by_storage_class".toList]
  dateTime := newYear

/-- Logs of production go to cold storage at the new year. -/
def archiveXml : LifecycleConfigurationXml where
  xmlns := none
  rules :=
    [{ expiration := none
       id := some "archive".toList
       keyPrefix := none
       filter := some
         { keyPrefix := none
           tag := none
           objectSizeGreaterThan := none
           objectSizeLessThan := none
           and := some
             { keyPrefix := some "logs/".toList
               tags := [⟨"env".toList, "prod".toList⟩]
               objectSizeGreaterThan := some 100
               objectSizeLessThan := none } }
       status := "Enabled".toList
       transitions := [⟨some "2026-01-01T00:00:00.000Z".toList, none, some "GLACIER".toList⟩]
       noncurrentVersionTransitions := []
       noncurrentVersionExpiration := none
       abortIncompleteMultipartUpload := some ⟨some 5⟩ }]
  transitionDefaultMinimumObjectSize := some "all_storage_classes_128K".toList

def archiveConfiguration : BucketLifecycleConfiguration serviceSdk where
  rules :=
    [{ expiration := none
       id := some "archive".toList
       keyPrefix := none
       filter := some
         { keyPrefix := none
           tag := none
           objectSizeGreaterThan := none
           objectSizeLessThan := none
           and := some
             { keyPrefix := some "logs/".toList
               tags := some [⟨"env".toList, "prod".toList⟩]
               objectSizeGreaterThan := some 100
               objectSizeLessThan := none } }
       status := "Enabled".toList
       transitions := some [⟨some (), none, some "GLACIER".toList⟩]
       noncurrentVersionTransitions := none
       noncurrentVersionExpiration := none
       abortIncompleteMultipartUpload := some ⟨some 5⟩ }]

theorem archiveConfiguration_savable : archiveConfiguration.Savable := by
  intro rule hrule
  obtain rfl := List.mem_singleton.mp hrule
  refine ⟨?_, ?_, ?_, ?_⟩
  · exact List.mem_cons_self
  · intro expiration h
    cases h
  · intro transition h
    obtain rfl := List.mem_singleton.mp h
    refine ⟨?_, fun _ _ => ⟨_, rfl⟩⟩
    intro value hvalue
    obtain rfl := Option.some.inj hvalue
    exact List.mem_cons_self
  · intro transition h
    cases h

theorem lifecycle_survives_archive :
    (∃ xml, LifecycleConfigurationXml.fromSdk archiveConfiguration
        (some "all_storage_classes_128K".toList) = .ok xml ∧
      xml.intoSdk = .ok (archiveConfiguration.withoutEmpty,
        some "all_storage_classes_128K".toList)) ∧
    LifecycleConfigurationXml.fromSdk archiveConfiguration
      (some "all_storage_classes_128K".toList) = .ok (archiveXml.normal serviceSdk) := by
  constructor
  · refine (lifecycle_survives serviceSdk).1 archiveConfiguration _ archiveConfiguration_savable ?_
    intro value hvalue
    obtain rfl := Option.some.inj hvalue
    exact List.mem_cons_self
  · exact (lifecycle_survives serviceSdk).2 archiveXml archiveConfiguration _ rfl

/-! ## Documents as text -/

/-- What is shown of a configuration as text is read as that configuration. -/
theorem lifecycleConfiguration_text_roundTrips (codec : XmlCodec)
    {config : BucketLifecycleConfiguration sdk}
    {size : Option sdk.transitionDefaultMinimumObjectSize.Value} {text : Str}
    (hconfig : config.Savable)
    (hsize : ∀ value, size = some value → sdk.transitionDefaultMinimumObjectSize.Known value)
    (h : lifecycleConfigurationToXml codec config size = .ok text) :
    lifecycleConfigurationFromXml codec text = .ok (config.withoutEmpty, size) := by
  obtain ⟨xml, hshown, hread⟩ := configuration_roundTrips hconfig hsize
  obtain ⟨xml', hxml, htext⟩ := bind_eq_ok h
  obtain rfl : xml = xml' := Except.ok.inj (hshown.symm.trans hxml)
  rw [lifecycleConfigurationFromXml, codec.from_to xml text htext]
  exact hread

/-- A normalised document is its own normal form. -/
theorem normalizeXml_normal (codec : XmlCodec) {xml text : Str}
    (h : normalizeXml codec xml = .ok text) : normalizeXml codec text = .ok text := by
  obtain ⟨parsed, -, htext⟩ := bind_eq_ok h
  rw [normalizeXml, codec.from_to parsed text htext]
  exact htext

end AbixioUi.Lifecycle
