import AbixioUi.Foundation.RoundTrip
import AbixioUi.Foundation.Text

/-! # Lifecycle documents

The document that the editor shows and the configuration that the service takes,
each record with its two conversions. The service's records, enumerations and dates
belong to its client library, which enters as `Sdk`: builders store what they are
given, accessors of absent lists return empty ones, and the laws of enumerations and
dates are fields.
-/

namespace AbixioUi.Lifecycle

open Foundation

/-! ## The client library -/

/-- A generated enumeration: a value has its text, and a text that the library knows
is parsed to the value that has it. -/
structure SdkEnum where
  Value : Type
  Known : Value → Prop
  asStr : Value → Str
  tryParse : Str → Except String Value
  tryParse_asStr : ∀ value, Known value → tryParse (asStr value) = .ok value
  asStr_of_tryParse : ∀ text value, tryParse text = .ok value → asStr value = text

/-- Instants and their text. A formatted instant parses back to itself, and what
was parsed can be formatted. -/
structure DateTimeFormat where
  DateTime : Type
  parse : Str → Except String DateTime
  format : DateTime → Except String Str
  parse_format : ∀ instant text, format instant = .ok text → parse text = .ok instant
  format_of_parse : ∀ text instant, parse text = .ok instant →
    ∃ normal, format instant = .ok normal

structure Sdk where
  expirationStatus : SdkEnum
  transitionStorageClass : SdkEnum
  transitionDefaultMinimumObjectSize : SdkEnum
  dateTime : DateTimeFormat

structure Tag where
  key : Str
  value : Str
deriving DecidableEq, Repr

structure AbortIncompleteMultipartUpload where
  daysAfterInitiation : Option Int32
deriving DecidableEq, Repr

structure NoncurrentVersionExpiration where
  noncurrentDays : Option Int32
  newerNoncurrentVersions : Option Int32
deriving DecidableEq, Repr

structure LifecycleRuleAndOperator where
  keyPrefix : Option Str
  tags : Option (List Tag)
  objectSizeGreaterThan : Option Int64
  objectSizeLessThan : Option Int64
deriving DecidableEq, Repr

structure LifecycleRuleFilter where
  keyPrefix : Option Str
  tag : Option Tag
  objectSizeGreaterThan : Option Int64
  objectSizeLessThan : Option Int64
  and : Option LifecycleRuleAndOperator
deriving DecidableEq, Repr

section Records

variable (sdk : Sdk)

structure NoncurrentVersionTransition where
  noncurrentDays : Option Int32
  storageClass : Option sdk.transitionStorageClass.Value
  newerNoncurrentVersions : Option Int32

structure Transition where
  date : Option sdk.dateTime.DateTime
  days : Option Int32
  storageClass : Option sdk.transitionStorageClass.Value

structure LifecycleExpiration where
  date : Option sdk.dateTime.DateTime
  days : Option Int32
  expiredObjectDeleteMarker : Option Bool

structure LifecycleRule where
  expiration : Option (LifecycleExpiration sdk)
  id : Option Str
  keyPrefix : Option Str
  filter : Option LifecycleRuleFilter
  status : sdk.expirationStatus.Value
  transitions : Option (List (Transition sdk))
  noncurrentVersionTransitions : Option (List (NoncurrentVersionTransition sdk))
  noncurrentVersionExpiration : Option NoncurrentVersionExpiration
  abortIncompleteMultipartUpload : Option AbortIncompleteMultipartUpload

structure BucketLifecycleConfiguration where
  rules : List (LifecycleRule sdk)

end Records

/-! ## Texts -/

variable {sdk : Sdk}

def parseDatetime (value : Str) : Except String sdk.dateTime.DateTime := sdk.dateTime.parse value

def formatDatetime (value : sdk.dateTime.DateTime) : Except String Str := sdk.dateTime.format value

def parseExpirationStatus (value : Str) : Except String sdk.expirationStatus.Value :=
  sdk.expirationStatus.tryParse value

def parseTransitionStorageClass (value : Str) : Except String sdk.transitionStorageClass.Value :=
  sdk.transitionStorageClass.tryParse value

def parseTransitionDefaultMinimumObjectSize (value : Str) :
    Except String sdk.transitionDefaultMinimumObjectSize.Value :=
  sdk.transitionDefaultMinimumObjectSize.tryParse value

/-! ## The document's records -/

structure TagXml where
  key : Str
  value : Str
deriving DecidableEq, Repr

def TagXml.intoSdk (tag : TagXml) : Except String Tag :=
  .ok { key := tag.key, value := tag.value }

def TagXml.fromSdk (tag : Tag) : Except String TagXml :=
  .ok { key := tag.key, value := tag.value }

structure AbortIncompleteMultipartUploadXml where
  daysAfterInitiation : Option Int32
deriving DecidableEq, Repr

def AbortIncompleteMultipartUploadXml.intoSdk (upload : AbortIncompleteMultipartUploadXml) :
    Except String AbortIncompleteMultipartUpload :=
  .ok { daysAfterInitiation := upload.daysAfterInitiation }

def AbortIncompleteMultipartUploadXml.fromSdk (upload : AbortIncompleteMultipartUpload) :
    Except String AbortIncompleteMultipartUploadXml :=
  .ok { daysAfterInitiation := upload.daysAfterInitiation }

structure NoncurrentVersionExpirationXml where
  noncurrentDays : Option Int32
  newerNoncurrentVersions : Option Int32
deriving DecidableEq, Repr

def NoncurrentVersionExpirationXml.intoSdk (expiration : NoncurrentVersionExpirationXml) :
    Except String NoncurrentVersionExpiration :=
  .ok
    { noncurrentDays := expiration.noncurrentDays
      newerNoncurrentVersions := expiration.newerNoncurrentVersions }

def NoncurrentVersionExpirationXml.fromSdk (expiration : NoncurrentVersionExpiration) :
    Except String NoncurrentVersionExpirationXml :=
  .ok
    { noncurrentDays := expiration.noncurrentDays
      newerNoncurrentVersions := expiration.newerNoncurrentVersions }

structure NoncurrentVersionTransitionXml where
  noncurrentDays : Option Int32
  storageClass : Option Str
  newerNoncurrentVersions : Option Int32
deriving DecidableEq, Repr

def NoncurrentVersionTransitionXml.intoSdk (transition : NoncurrentVersionTransitionXml) :
    Except String (NoncurrentVersionTransition sdk) := do
  let storageClass ← transpose (transition.storageClass.map parseTransitionStorageClass)
  return {
    noncurrentDays := transition.noncurrentDays
    storageClass := storageClass
    newerNoncurrentVersions := transition.newerNoncurrentVersions }

def NoncurrentVersionTransitionXml.fromSdk (transition : NoncurrentVersionTransition sdk) :
    Except String NoncurrentVersionTransitionXml :=
  .ok
    { noncurrentDays := transition.noncurrentDays
      storageClass := transition.storageClass.map sdk.transitionStorageClass.asStr
      newerNoncurrentVersions := transition.newerNoncurrentVersions }

structure TransitionXml where
  date : Option Str
  days : Option Int32
  storageClass : Option Str
deriving DecidableEq, Repr

def TransitionXml.intoSdk (transition : TransitionXml) : Except String (Transition sdk) := do
  let date ← transpose (transition.date.map parseDatetime)
  let storageClass ← transpose (transition.storageClass.map parseTransitionStorageClass)
  return { date := date, days := transition.days, storageClass := storageClass }

def TransitionXml.fromSdk (transition : Transition sdk) : Except String TransitionXml := do
  let date ← transpose (transition.date.map formatDatetime)
  return {
    date := date
    days := transition.days
    storageClass := transition.storageClass.map sdk.transitionStorageClass.asStr }

structure LifecycleExpirationXml where
  date : Option Str
  days : Option Int32
  expiredObjectDeleteMarker : Option Bool
deriving DecidableEq, Repr

def LifecycleExpirationXml.intoSdk (expiration : LifecycleExpirationXml) :
    Except String (LifecycleExpiration sdk) := do
  let date ← transpose (expiration.date.map parseDatetime)
  return {
    date := date
    days := expiration.days
    expiredObjectDeleteMarker := expiration.expiredObjectDeleteMarker }

def LifecycleExpirationXml.fromSdk (expiration : LifecycleExpiration sdk) :
    Except String LifecycleExpirationXml := do
  let date ← transpose (expiration.date.map formatDatetime)
  return {
    date := date
    days := expiration.days
    expiredObjectDeleteMarker := expiration.expiredObjectDeleteMarker }

structure LifecycleRuleAndOperatorXml where
  keyPrefix : Option Str
  tags : List TagXml
  objectSizeGreaterThan : Option Int64
  objectSizeLessThan : Option Int64
deriving DecidableEq, Repr

def LifecycleRuleAndOperatorXml.intoSdk (and : LifecycleRuleAndOperatorXml) :
    Except String LifecycleRuleAndOperator := do
  let tags ← collectNonempty (and.tags.map TagXml.intoSdk)
  return {
    keyPrefix := and.keyPrefix
    tags := tags
    objectSizeGreaterThan := and.objectSizeGreaterThan
    objectSizeLessThan := and.objectSizeLessThan }

def LifecycleRuleAndOperatorXml.fromSdk (and : LifecycleRuleAndOperator) :
    Except String LifecycleRuleAndOperatorXml := do
  let tags ← collect ((and.tags.getD []).map TagXml.fromSdk)
  return {
    keyPrefix := and.keyPrefix
    tags := tags
    objectSizeGreaterThan := and.objectSizeGreaterThan
    objectSizeLessThan := and.objectSizeLessThan }

structure LifecycleRuleFilterXml where
  keyPrefix : Option Str
  tag : Option TagXml
  objectSizeGreaterThan : Option Int64
  objectSizeLessThan : Option Int64
  and : Option LifecycleRuleAndOperatorXml
deriving DecidableEq, Repr

def LifecycleRuleFilterXml.intoSdk (filter : LifecycleRuleFilterXml) :
    Except String LifecycleRuleFilter := do
  let tag ← transpose (filter.tag.map TagXml.intoSdk)
  let and ← transpose (filter.and.map LifecycleRuleAndOperatorXml.intoSdk)
  return {
    keyPrefix := filter.keyPrefix
    tag := tag
    objectSizeGreaterThan := filter.objectSizeGreaterThan
    objectSizeLessThan := filter.objectSizeLessThan
    and := and }

def LifecycleRuleFilterXml.fromSdk (filter : LifecycleRuleFilter) :
    Except String LifecycleRuleFilterXml := do
  let tag ← transpose (filter.tag.map TagXml.fromSdk)
  let and ← transpose (filter.and.map LifecycleRuleAndOperatorXml.fromSdk)
  return {
    keyPrefix := filter.keyPrefix
    tag := tag
    objectSizeGreaterThan := filter.objectSizeGreaterThan
    objectSizeLessThan := filter.objectSizeLessThan
    and := and }

structure LifecycleRuleXml where
  expiration : Option LifecycleExpirationXml
  id : Option Str
  keyPrefix : Option Str
  filter : Option LifecycleRuleFilterXml
  status : Str
  transitions : List TransitionXml
  noncurrentVersionTransitions : List NoncurrentVersionTransitionXml
  noncurrentVersionExpiration : Option NoncurrentVersionExpirationXml
  abortIncompleteMultipartUpload : Option AbortIncompleteMultipartUploadXml
deriving DecidableEq, Repr

def LifecycleRuleXml.intoSdk (rule : LifecycleRuleXml) : Except String (LifecycleRule sdk) := do
  let status ← parseExpirationStatus rule.status
  let expiration ← transpose (rule.expiration.map LifecycleExpirationXml.intoSdk)
  let filter ← transpose (rule.filter.map LifecycleRuleFilterXml.intoSdk)
  let transitions ← collectNonempty (rule.transitions.map TransitionXml.intoSdk)
  let noncurrentVersionTransitions ←
    collectNonempty (rule.noncurrentVersionTransitions.map NoncurrentVersionTransitionXml.intoSdk)
  let noncurrentVersionExpiration ←
    transpose (rule.noncurrentVersionExpiration.map NoncurrentVersionExpirationXml.intoSdk)
  let abortIncompleteMultipartUpload ←
    transpose (rule.abortIncompleteMultipartUpload.map AbortIncompleteMultipartUploadXml.intoSdk)
  return {
    expiration := expiration
    id := rule.id
    keyPrefix := rule.keyPrefix
    filter := filter
    status := status
    transitions := transitions
    noncurrentVersionTransitions := noncurrentVersionTransitions
    noncurrentVersionExpiration := noncurrentVersionExpiration
    abortIncompleteMultipartUpload := abortIncompleteMultipartUpload }

def LifecycleRuleXml.fromSdk (rule : LifecycleRule sdk) : Except String LifecycleRuleXml := do
  let expiration ← transpose (rule.expiration.map LifecycleExpirationXml.fromSdk)
  let filter ← transpose (rule.filter.map LifecycleRuleFilterXml.fromSdk)
  let transitions ← collect ((rule.transitions.getD []).map TransitionXml.fromSdk)
  let noncurrentVersionTransitions ← collect
    ((rule.noncurrentVersionTransitions.getD []).map NoncurrentVersionTransitionXml.fromSdk)
  let noncurrentVersionExpiration ←
    transpose (rule.noncurrentVersionExpiration.map NoncurrentVersionExpirationXml.fromSdk)
  let abortIncompleteMultipartUpload ←
    transpose (rule.abortIncompleteMultipartUpload.map AbortIncompleteMultipartUploadXml.fromSdk)
  return {
    expiration := expiration
    id := rule.id
    keyPrefix := rule.keyPrefix
    filter := filter
    status := sdk.expirationStatus.asStr rule.status
    transitions := transitions
    noncurrentVersionTransitions := noncurrentVersionTransitions
    noncurrentVersionExpiration := noncurrentVersionExpiration
    abortIncompleteMultipartUpload := abortIncompleteMultipartUpload }

def S3_LIFECYCLE_XMLNS : Str := "http://s3.amazonaws.com/doc/2006-03-01/".toList

structure LifecycleConfigurationXml where
  xmlns : Option Str
  rules : List LifecycleRuleXml
  transitionDefaultMinimumObjectSize : Option Str
deriving DecidableEq, Repr

/-- A configuration with the default size that travels beside it. -/
abbrev SdkLifecycle (sdk : Sdk) :=
  BucketLifecycleConfiguration sdk × Option sdk.transitionDefaultMinimumObjectSize.Value

def LifecycleConfigurationXml.intoSdk (xml : LifecycleConfigurationXml) :
    Except String (SdkLifecycle sdk) := do
  let rules ← collect (xml.rules.map LifecycleRuleXml.intoSdk)
  let transitionDefaultMinimumObjectSize ← transpose
    (xml.transitionDefaultMinimumObjectSize.map parseTransitionDefaultMinimumObjectSize)
  return ({ rules := rules }, transitionDefaultMinimumObjectSize)

def LifecycleConfigurationXml.fromSdk (config : BucketLifecycleConfiguration sdk)
    (transitionDefaultMinimumObjectSize : Option sdk.transitionDefaultMinimumObjectSize.Value) :
    Except String LifecycleConfigurationXml := do
  let rules ← collect (config.rules.map LifecycleRuleXml.fromSdk)
  return {
    xmlns := some S3_LIFECYCLE_XMLNS
    rules := rules
    transitionDefaultMinimumObjectSize := transitionDefaultMinimumObjectSize.map
      sdk.transitionDefaultMinimumObjectSize.asStr }

/-! ## Documents as text -/

/-- The XML writer and reader of the document. What was written is read back. -/
structure XmlCodec where
  toXmlString : LifecycleConfigurationXml → Except String Str
  fromXmlStr : Str → Except String LifecycleConfigurationXml
  from_to : ∀ xml text, toXmlString xml = .ok text → fromXmlStr text = .ok xml

def normalizeXml (codec : XmlCodec) (xml : Str) : Except String Str := do
  let parsed ← codec.fromXmlStr xml
  codec.toXmlString parsed

def lifecycleConfigurationFromXml (codec : XmlCodec) (xml : Str) :
    Except String (SdkLifecycle sdk) := do
  let parsed ← codec.fromXmlStr xml
  parsed.intoSdk

def lifecycleConfigurationToXml (codec : XmlCodec) (config : BucketLifecycleConfiguration sdk)
    (transitionDefaultMinimumObjectSize : Option sdk.transitionDefaultMinimumObjectSize.Value) :
    Except String Str := do
  let xml ← LifecycleConfigurationXml.fromSdk config transitionDefaultMinimumObjectSize
  codec.toXmlString xml

end AbixioUi.Lifecycle
