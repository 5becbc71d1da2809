import AbixioUi.Foundation.Lists
import AbixioUi.Foundation.Percent
import Mathlib.Data.Char
import Mathlib.Data.List.Lex

/-! # Signed requests of the admin client

The admin client appends its parameters to a URL and signs the query that the URL then
has: it splits the query at the ampersands, sorts the pieces and joins them again. The
parameters are form encoded when they are appended.
-/

namespace AbixioUi

open Foundation

namespace Admin

/-! ## URLs -/

/-- What is used of the crate that parses URLs. -/
structure UrlCrate (υ : Type) where
  parse : Str → Option υ
  text : υ → Str
  host : υ → Option Str
  port : υ → Option Nat
  path : υ → Str
  query : υ → Option Str
  /-- Append parameters to the query. -/
  extendPairs : υ → List (Str × Str) → υ

def joinPairs (encode : Str → Str) (params : List (Str × Str)) : Str :=
  ['&'].intercalate (params.map fun param => encode param.1 ++ '=' :: encode param.2)

/-- The form encoded parameters, after a query that is there already. -/
def appendPairs (query : Str) (params : List (Str × Str)) : Str :=
  if query = [] then joinPairs formEncode params
  else query ++ '&' :: joinPairs formEncode params

/-- The query of a text that is a URL, before it is encoded: what is between the first
question mark and the fragment. Tabs and newlines are dropped. -/
def rawQuery (text : Str) : Str :=
  match (text.filter fun c => c ≠ '\t' ∧ c ≠ '\n' ∧ c ≠ '\r').dropWhile
      fun c => c ≠ '?' ∧ c ≠ '#' with
  | '?' :: rest => rest.takeWhile (· ≠ '#')
  | _ => []

/-- The text does not end in what parsing trims: blanks and control characters. -/
def Trimmed (text : Str) : Prop := ∀ c ∈ text.getLast?, ' ' < c

/-- What the documentation of the crate says: a URL is what its text is parsed to, the
query that parameters are added to is form encoded, and encoding keeps an empty query empty
and no other. -/
structure UrlCrate.Documented {υ : Type} (crate : UrlCrate υ) : Prop where
  parse_text : ∀ url, crate.parse (crate.text url) = some url
  query_extendPairs : ∀ url params, params ≠ [] → crate.query (crate.extendPairs url params) =
    some (appendPairs ((crate.query url).getD []) params)
  query_parse : ∀ text url, Trimmed text → crate.parse text = some url →
    ((crate.query url).getD [] = [] ↔ rawQuery text = [])

/-! ## The client -/

structure AdminClient where
  endpoint : Str
  credentials : Option (Str × Str)
  region : Str

namespace AdminClient

variable {υ : Type} (crate : UrlCrate υ) (client : AdminClient)

def url (path : Str) : Str := client.endpoint ++ "/_admin/".toList ++ path

/-- `none` is the panic on an endpoint that is no URL. -/
def urlWithQuery (path : Str) (params : List (Str × Str)) : Option Str :=
  (crate.parse (client.url path)).map fun url => crate.text (crate.extendPairs url params)

def objectParams (bucket key : Str) : List (Str × Str) :=
  [("bucket".toList, bucket), ("key".toList, key)]

def fttPath (bucket : Str) : Str := "bucket/".toList ++ bucket ++ "/ftt".toList

def fttParams (ftt : Nat) : List (Str × Str) := [("ftt".toList, (Nat.repr ftt).toList)]

def inspectObjectUrl (bucket key : Str) : Option Str :=
  client.urlWithQuery crate "object".toList (objectParams bucket key)

def healObjectUrl (bucket key : Str) : Option Str :=
  client.urlWithQuery crate "heal".toList (objectParams bucket key)

def setBucketFttUrl (bucket : Str) (ftt : Nat) : Option Str :=
  client.urlWithQuery crate (fttPath bucket) (fttParams ftt)

end AdminClient

/-! ## Signing -/

def canonicalQueryString (query : Str) : Str :=
  if query = [] then []
  else ['&'].intercalate ((splitAtChars (· == '&') query).insertionSort (· ≤ ·))

/-- The digests that a signature is made with. -/
structure Digests where
  /-- The digest of a text, in hexadecimal. -/
  sha256 : Str → Str
  hmacSha256 : List UInt8 → List UInt8 → List UInt8
  hex : List UInt8 → Str

/-- The date as it is in the scope, and the time as it is in the header. -/
structure Stamps where
  date : Str
  time : Str

def EMPTY_SHA256 : Str :=
  "e3b0c44298fc1c149afbf4c8996fb92427ae41e4649b934ca495991b7852b855".toList

section

variable {υ : Type} (crate : UrlCrate υ)

def hostHeader (url : υ) : Str :=
  let host := (crate.host url).getD "localhost".toList
  match crate.port url with
  | some port => host ++ ':' :: (Nat.repr port).toList
  | none => host

/-- The query that is signed for a URL. -/
def canonicalQuery (url : υ) : Str := canonicalQueryString ((crate.query url).getD [])

def signedHeaders : Str := "host;x-amz-content-sha256;x-amz-date".toList

def canonicalRequest (stamps : Stamps) (method : Str) (url : υ) : Str :=
  let headers := "host:".toList ++ hostHeader crate url ++ "\nx-amz-content-sha256:".toList ++
    EMPTY_SHA256 ++ "\nx-amz-date:".toList ++ stamps.time ++ ['\n']
  ['\n'].intercalate
    [method, crate.path url, canonicalQuery crate url, headers, signedHeaders, EMPTY_SHA256]

def utf8Bytes (s : Str) : List UInt8 := s.flatMap String.utf8EncodeChar

def signingKey (digests : Digests) (stamps : Stamps) (secretKey region : Str) : List UInt8 :=
  let date := digests.hmacSha256 (utf8Bytes ("AWS4".toList ++ secretKey)) (utf8Bytes stamps.date)
  let regional := digests.hmacSha256 date (utf8Bytes region)
  let service := digests.hmacSha256 regional (utf8Bytes "s3".toList)
  digests.hmacSha256 service (utf8Bytes "aws4_request".toList)

/-- The headers of a signed request; `none` is the panic on a text that is no URL. -/
def sigV4Headers (digests : Digests) (stamps : Stamps) (method urlText accessKey secretKey
    region : Str) : Option (List (Str × Str)) :=
  (crate.parse urlText).map fun url =>
    let scope := stamps.date ++ '/' :: region ++ "/s3/aws4_request".toList
    let stringToSign := ['\n'].intercalate ["AWS4-HMAC-SHA256".toList, stamps.time, scope,
      digests.sha256 (canonicalRequest crate stamps method url)]
    let signature := digests.hex (digests.hmacSha256
      (signingKey digests stamps secretKey region) (utf8Bytes stringToSign))
    let authorization := "AWS4-HMAC-SHA256 Credential=".toList ++ accessKey ++ '/' :: scope ++
      ", SignedHeaders=".toList ++ signedHeaders ++ ", Signature=".toList ++ signature
    [("authorization".toList, authorization), ("x-amz-content-sha256".toList, EMPTY_SHA256),
      ("x-amz-date".toList, stamps.time), ("host".toList, hostHeader crate url)]

/-- The canonical query that is signed for the text of a URL. -/
def signedQuery (urlText : Str) : Option Str := (crate.parse urlText).map (canonicalQuery crate)

end

/-! ## The canonical query of the standard -/

/-- By name, and by value for one name. -/
def PairLE (p q : Str × Str) : Prop := p.1 < q.1 ∨ p.1 = q.1 ∧ p.2 ≤ q.2

instance (p q : Str × Str) : Decidable (PairLE p q) := inferInstanceAs (Decidable (_ ∨ _))

/-- What the signature standard defines: encoded names and values, sorted and joined. -/
def standardQuery (params : List (Str × Str)) : Str :=
  let encoded := params.map fun param => (signatureEncode param.1, signatureEncode param.2)
  ['&'].intercalate ((encoded.insertionSort PairLE).map fun param => param.1 ++ '=' :: param.2)

variable {params : List (Str × Str)} {query : Str}

theorem standardQuery_of_sorted
    (h : (params.map fun param => (signatureEncode param.1, signatureEncode param.2)).Pairwise
      PairLE) : standardQuery params = joinPairs signatureEncode params := by
  rw [standardQuery, h.insertionSort_eq, List.map_map]
  rfl

/-- A character that no encoding has is in no pair. -/
theorem not_mem_pairs {encode : Str → Str} {x : Char} (hencode : ∀ s, x ∉ encode s)
    (hx : x ≠ '=') :
    ∀ piece ∈ params.map fun param => encode param.1 ++ '=' :: encode param.2, x ∉ piece := by
  intro piece hpiece hmem
  obtain ⟨param, -, rfl⟩ := List.mem_map.mp hpiece
  rcases List.mem_append.mp hmem with h | h
  · exact hencode _ h
  · rcases List.mem_cons.mp h with h | h
    · exact hx h
    · exact hencode _ h

theorem not_mem_joinPairs {encode : Str → Str} {x : Char} (hencode : ∀ s, x ∉ encode s)
    (heq : x ≠ '=') (hamp : x ≠ '&') : x ∉ joinPairs encode params := by
  intro hmem
  rcases mem_intercalate hmem with h | ⟨piece, hpiece, h⟩
  · exact hamp (List.mem_singleton.mp h)
  · exact not_mem_pairs hencode heq piece hpiece h

theorem mem_joinPairs {encode : Str → Str} {x : Char} {param : Str × Str}
    (hparam : param ∈ params) (hx : x ∈ encode param.1 ∨ x ∈ encode param.2) :
    x ∈ joinPairs encode params := by
  apply mem_intercalate_of_mem (List.mem_map_of_mem hparam)
  rcases hx with hx | hx
  · exact List.mem_append_left _ hx
  · exact List.mem_append_right _ (List.mem_cons_of_mem _ hx)

theorem formEncode_ne_amp (s : Str) : '&' ∉ formEncode s :=
  fun h => (form_chars s '&' h).2.1 rfl

theorem signatureEncode_ne_amp (s : Str) : '&' ∉ signatureEncode s :=
  fun h => (signature_chars s '&' h).2.2 rfl

theorem count_joinPairs {encode : Str → Str} (hne : params ≠ [])
    (hencode : ∀ s, '&' ∉ encode s) : (joinPairs encode params).count '&' + 1 = params.length := by
  rw [joinPairs, count_intercalate (by simpa using hne) (not_mem_pairs hencode (by decide)),
    List.length_map]

/-- Sorting the pieces leaves as many separators as there were. -/
theorem count_canonicalQueryString (query : Str) :
    (canonicalQueryString query).count '&' = query.count '&' := by
  unfold canonicalQueryString
  split
  next hnil => rw [hnil]
  next =>
    have hpieces : ∀ piece ∈ (splitAtChars (· == '&') query).insertionSort (· ≤ ·),
        '&' ∉ piece := by
      intro piece hpiece hmem
      have hno := splitAtChars_mem_no_sep ((List.mem_insertionSort _).mp hpiece) '&' hmem
      exact absurd hno (by decide)
    have hne : (splitAtChars (· == '&') query).insertionSort (· ≤ ·) ≠ [] := by
      intro hnil
      have hlength := congrArg List.length hnil
      rw [List.length_insertionSort, length_splitAtChars] at hlength
      cases hlength
    have hcount := count_intercalate hne hpieces
    rw [List.length_insertionSort, length_splitAtChars] at hcount
    exact Nat.add_right_cancel hcount

/-- Parameters in order stay as they were appended. -/
theorem canonicalQueryString_sorted (hne : params ≠ [])
    (h : (params.map fun param => formEncode param.1 ++ '=' :: formEncode param.2).Pairwise
      (· ≤ ·)) :
    canonicalQueryString (joinPairs formEncode params) = joinPairs formEncode params := by
  unfold canonicalQueryString
  split
  next hnil => exact hnil.symm
  next =>
    have hpieces : ∀ piece ∈ params.map fun param =>
        formEncode param.1 ++ '=' :: formEncode param.2, '&' ∉ piece :=
      not_mem_pairs formEncode_ne_amp (by decide)
    rw [joinPairs, splitAtChars_intercalate (by decide) (by simpa using hne),
      h.insertionSort_eq]
    intro piece hpiece c hc
    rw [beq_eq_false_iff_ne]
    intro hamp
    rw [hamp] at hc
    exact hpieces piece hpiece hc

/-- The two encodings of the parameters agree exactly if those of every part do. -/
theorem joinPairs_eq_iff (params : List (Str × Str)) :
    joinPairs formEncode params = joinPairs signatureEncode params ↔
      ∀ param ∈ params, SameEncoding param.1 ∧ SameEncoding param.2 := by
  constructor
  · intro heq param hparam
    have hsame : ∀ s, s = param.1 ∨ s = param.2 → SameEncoding s := by
      intro s hs
      by_contra hdiffers
      have hmem : ∀ encode : Str → Str, ∀ x, x ∈ encode s → x ∈ joinPairs encode params := by
        intro encode x hx
        apply mem_joinPairs hparam
        rcases hs with rfl | rfl
        · exact .inl hx
        · exact .inr hx
      rcases encoding_differs hdiffers with h | h | h
      · have hplus := hmem formEncode '+' h
        rw [heq] at hplus
        exact not_mem_joinPairs (fun s h => (signature_chars s '+' h).1 rfl) (by decide) (by decide)
          hplus
      · have hasterisk := hmem formEncode '*' h
        rw [heq] at hasterisk
        exact not_mem_joinPairs (fun s h => (signature_chars s '*' h).2.1 rfl) (by decide)
          (by decide) hasterisk
      · have htilde := hmem signatureEncode '~' h
        rw [← heq] at htilde
        exact not_mem_joinPairs (fun s h => (form_chars s '~' h).1 rfl) (by decide) (by decide)
          htilde
    exact ⟨hsame _ (.inl rfl), hsame _ (.inr rfl)⟩
  · intro h
    unfold joinPairs
    congr 1
    apply List.map_congr_left
    intro param hparam
    rw [formEncode_eq_signatureEncode (h param hparam).1,
      formEncode_eq_signatureEncode (h param hparam).2]

/-! ## What is signed -/

variable {υ : Type} {crate : UrlCrate υ} {client : AdminClient} {path : Str} {base : υ}

/-- What the client puts at the end of a text ends the text of the URL. -/
theorem AdminClient.url_trimmed (client : AdminClient) {c : Char} (hc : ' ' < c)
    (hpath : path.getLast? = some c) : Trimmed (client.url path) := by
  intro d hd
  have hlast : (client.url path).getLast? = some c := List.mem_getLast?_append_of_mem_getLast? hpath
  rw [hlast] at hd
  exact Option.some.inj hd ▸ hc

theorem signedQuery_urlWithQuery (hcrate : crate.Documented)
    (hbase : crate.parse (client.url path) = some base) {params : List (Str × Str)}
    (hne : params ≠ []) :
    (client.urlWithQuery crate path params).bind (signedQuery crate) =
      some (canonicalQueryString (appendPairs ((crate.query base).getD []) params)) := by
  rw [AdminClient.urlWithQuery, hbase, Option.map_some, Option.bind_some, signedQuery,
    hcrate.parse_text, Option.map_some, canonicalQuery, hcrate.query_extendPairs _ _ hne]
  rfl

/-- A query that was there before is signed too, and is one pair too many. -/
theorem canonicalQueryString_append_ne (hne : params ≠ []) (hquery : query ≠ []) :
    canonicalQueryString (appendPairs query params) ≠ joinPairs signatureEncode params := by
  intro heq
  have hcount := congrArg (List.count '&') heq
  have hform := count_joinPairs hne formEncode_ne_amp
  have hsignature := count_joinPairs hne signatureEncode_ne_amp
  rw [count_canonicalQueryString, appendPairs, if_neg hquery, List.count_append,
    List.count_cons_self] at hcount
  omega

/-- Parameters in order are signed as the standard says exactly if the URL had no query
before and both encodings agree on them. -/
theorem signedQuery_iff (hcrate : crate.Documented) (htrimmed : Trimmed (client.url path))
    (hbase : crate.parse (client.url path) = some base) (hne : params ≠ [])
    (hform : (params.map fun param => formEncode param.1 ++ '=' :: formEncode param.2).Pairwise
      (· ≤ ·))
    (hstandard : (params.map fun param =>
      (signatureEncode param.1, signatureEncode param.2)).Pairwise PairLE) :
    (client.urlWithQuery crate path params).bind (signedQuery crate) =
        some (standardQuery params) ↔
      rawQuery (client.url path) = [] ∧
        ∀ param ∈ params, SameEncoding param.1 ∧ SameEncoding param.2 := by
  rw [signedQuery_urlWithQuery hcrate hbase hne, standardQuery_of_sorted hstandard,
    Option.some.injEq, ← hcrate.query_parse _ _ htrimmed hbase]
  by_cases hquery : (crate.query base).getD [] = []
  · rw [appendPairs, if_pos hquery, canonicalQueryString_sorted hne hform, joinPairs_eq_iff]
    exact (and_iff_right hquery).symm
  · exact iff_of_false (canonicalQueryString_append_ne hne hquery) fun h => hquery h.1

section

open AdminClient

theorem bucket_lt_key (x y : Str) :
    "bucket".toList ++ x < "key".toList ++ y :=
  List.Lex.rel (by decide)

theorem objectParams_sorted (bucket key : Str) :
    ((objectParams bucket key).map fun param =>
      formEncode param.1 ++ '=' :: formEncode param.2).Pairwise (· ≤ ·) := by
  have hbucket : formEncode "bucket".toList = "bucket".toList := by decide
  have hkey : formEncode "key".toList = "key".toList := by decide
  simp only [objectParams, List.map_cons, List.map_nil, List.pairwise_pair, hbucket, hkey]
  exact le_of_lt (bucket_lt_key _ _)

theorem objectParams_standard (bucket key : Str) :
    ((objectParams bucket key).map fun param =>
      (signatureEncode param.1, signatureEncode param.2)).Pairwise PairLE := by
  have hbucket : signatureEncode "bucket".toList = "bucket".toList := by decide
  have hkey : signatureEncode "key".toList = "key".toList := by decide
  simp only [objectParams, List.map_cons, List.map_nil, List.pairwise_pair, hbucket, hkey]
  exact .inl (bucket_lt_key [] [])

/-- Decimal digits are encoded as they are. -/
theorem sameEncoding_repr (n : Nat) : SameEncoding (Nat.repr n).toList := by
  intro c hc
  have hdigit : c.isDigit = true := by
    rw [Nat.toList_repr] at hc
    exact Nat.isDigit_of_mem_toDigits (by decide) (by decide) hc
  refine ⟨?_, ?_, ?_⟩ <;>
    · rintro rfl
      exact absurd hdigit (by decide)

/-- The queries that are signed for the two requests about an object and for the one that
sets the tolerance of a bucket are the canonical ones exactly if the URL has no query of
its own and no special character is among the parameters. -/
theorem signed_queries_iff (hcrate : crate.Documented)
    (bucket key : Str) (ftt : Nat)
    (hobject : (crate.parse (client.url "object".toList)).isSome)
    (hheal : (crate.parse (client.url "heal".toList)).isSome)
    (hbucket : (crate.parse (client.url (fttPath bucket))).isSome) :
    ((client.inspectObjectUrl crate bucket key).bind (signedQuery crate) =
          some (standardQuery (objectParams bucket key)) ∧
        (client.healObjectUrl crate bucket key).bind (signedQuery crate) =
          some (standardQuery (objectParams bucket key)) ∧
        (client.setBucketFttUrl crate bucket ftt).bind (signedQuery crate) =
          some (standardQuery (fttParams ftt))) ↔
      (rawQuery (client.url "object".toList) = [] ∧ rawQuery (client.url "heal".toList) = [] ∧
        rawQuery (client.url (fttPath bucket)) = []) ∧
          SameEncoding bucket ∧ SameEncoding key := by
  obtain ⟨object, hobject⟩ := Option.isSome_iff_exists.mp hobject
  obtain ⟨heal, hheal⟩ := Option.isSome_iff_exists.mp hheal
  obtain ⟨bucketUrl, hbucketUrl⟩ := Option.isSome_iff_exists.mp hbucket
  have hparams : (∀ param ∈ objectParams bucket key,
      SameEncoding param.1 ∧ SameEncoding param.2) ↔ SameEncoding bucket ∧ SameEncoding key := by
    have hbucket : SameEncoding "bucket".toList := by decide
    have hkey : SameEncoding "key".toList := by decide
    rw [objectParams, List.forall_mem_cons, List.forall_mem_singleton, and_iff_right hbucket,
      and_iff_right hkey]
  have hftt : ∀ param ∈ fttParams ftt, SameEncoding param.1 ∧ SameEncoding param.2 := by
    intro param hparam
    rw [List.mem_singleton.mp hparam]
    have hname : SameEncoding "ftt".toList := by decide
    exact ⟨hname, sameEncoding_repr ftt⟩
  have hne : objectParams bucket key ≠ [] := List.cons_ne_nil _ _
  have hneFtt : fttParams ftt ≠ [] := List.cons_ne_nil _ _
  have hend : "/ftt".toList.getLast? = some 't' := by decide
  have hlast : (fttPath bucket).getLast? = some 't' := List.mem_getLast?_append_of_mem_getLast? hend
  have hobjectEnd := @AdminClient.url_trimmed "object".toList client 't' (by decide) (by decide)
  have hhealEnd := @AdminClient.url_trimmed "heal".toList client 'l' (by decide) (by decide)
  have hbucketEnd := client.url_trimmed (by decide) hlast
  rw [AdminClient.inspectObjectUrl, AdminClient.healObjectUrl, AdminClient.setBucketFttUrl,
    signedQuery_iff hcrate hobjectEnd hobject hne (objectParams_sorted bucket key)
      (objectParams_standard bucket key),
    signedQuery_iff hcrate hhealEnd hheal hne (objectParams_sorted bucket key)
      (objectParams_standard bucket key),
    signedQuery_iff hcrate hbucketEnd hbucketUrl hneFtt (List.pairwise_singleton _ _)
      (List.pairwise_singleton _ _), hparams]
  constructor
  · rintro ⟨⟨hobjectQuery, hsame⟩, ⟨hhealQuery, -⟩, hbucketQuery, -⟩
    exact ⟨⟨hobjectQuery, hhealQuery, hbucketQuery⟩, hsame⟩
  · rintro ⟨⟨hobjectQuery, hhealQuery, hbucketQuery⟩, hsame⟩
    exact ⟨⟨hobjectQuery, hsame⟩, ⟨hhealQuery, hsame⟩, hbucketQuery, hftt⟩

/-! ## An example of a crate -/

/-- A text with a query at most: no fragment, and nothing that parsing drops. -/
def IsPlainUrl (text : Str) : Prop := ∀ c ∈ text, c ≠ '#' ∧ c ≠ '\t' ∧ c ≠ '\n' ∧ c ≠ '\r'

instance (text : Str) : Decidable (IsPlainUrl text) := List.decidableBAll _ text

/-- What is after the first question mark. -/
def queryAfter (text : Str) : Option Str :=
  match text.dropWhile (· ≠ '?') with
  | [] => none
  | _ :: rest => some rest

theorem dropWhile_plain {text : Str} (h : IsPlainUrl text) :
    (text.dropWhile fun c => c ≠ '?' ∧ c ≠ '#') = text.dropWhile (· ≠ '?') := by
  induction text with
  | nil => rfl
  | cons c text ih =>
      obtain ⟨hc, hrest⟩ := List.forall_mem_cons.mp h
      simp only [List.dropWhile_cons, ih hrest, hc.1, ne_eq, not_false_eq_true, and_true]

theorem rawQuery_plain {text : Str} (h : IsPlainUrl text) :
    rawQuery text = (queryAfter text).getD [] := by
  have hfilter : (text.filter fun c => c ≠ '\t' ∧ c ≠ '\n' ∧ c ≠ '\r') = text :=
    List.filter_eq_self.mpr fun c hc => by simpa using (h c hc).2
  have hhead := List.head?_dropWhile_not (· ≠ '?') text
  have hsuffix := List.dropWhile_suffix (l := text) (· ≠ '?')
  rw [rawQuery, queryAfter, hfilter, dropWhile_plain h]
  cases hdrop : text.dropWhile (· ≠ '?') with
  | nil => rfl
  | cons c rest =>
      rw [hdrop] at hhead hsuffix
      have hc : c = '?' := by simpa using hhead
      subst hc
      show rest.takeWhile (· ≠ '#') = rest
      rw [List.takeWhile_eq_self_iff]
      intro d hd
      have hplain := h d (hsuffix.subset (List.mem_cons_of_mem _ hd))
      simpa using hplain.1

/-- Parameters replace what is after the first question mark by more. -/
def appendToText (text : Str) (params : List (Str × Str)) : Str :=
  text.takeWhile (· ≠ '?') ++ '?' :: appendPairs ((queryAfter text).getD []) params

theorem queryAfter_append (text : Str) (params : List (Str × Str)) :
    queryAfter (appendToText text params) =
      some (appendPairs ((queryAfter text).getD []) params) := by
  rw [queryAfter, appendToText, List.dropWhile_append_of_pos]
  · rfl
  · intro c hc
    exact List.mem_takeWhile_imp (p := fun c => decide (c ≠ '?')) hc

theorem joinPairs_plain (params : List (Str × Str)) :
    IsPlainUrl (joinPairs formEncode params) := by
  have hno : ∀ x, (∀ s, x ∉ formEncode s) → x ≠ '=' → x ≠ '&' →
      ∀ c ∈ joinPairs formEncode params, c ≠ x := by
    intro x hencode heq hamp c hc hcx
    rw [hcx] at hc
    exact not_mem_joinPairs hencode heq hamp hc
  intro c hc
  refine ⟨?_, ?_, ?_, ?_⟩
  · exact hno '#' (fun s h => (form_chars s '#' h).2.2.1 rfl) (by decide) (by decide) c hc
  · exact hno '\t' (fun s h => (form_chars s '\t' h).2.2.2.1 rfl) (by decide) (by decide) c hc
  · exact hno '\n' (fun s h => (form_chars s '\n' h).2.2.2.2.1 rfl) (by decide) (by decide) c hc
  · exact hno '\r' (fun s h => (form_chars s '\r' h).2.2.2.2.2 rfl) (by decide) (by decide) c hc

theorem appendToText_plain {text : Str} (h : IsPlainUrl text) (params : List (Str × Str)) :
    IsPlainUrl (appendToText text params) := by
  have hfront : IsPlainUrl (text.takeWhile (· ≠ '?')) :=
    fun c hc => h c ((List.takeWhile_sublist _).subset hc)
  have hquery : IsPlainUrl ((queryAfter text).getD []) := by
    have hsuffix := List.dropWhile_suffix (l := text) (· ≠ '?')
    unfold queryAfter
    cases hdrop : text.dropWhile (· ≠ '?') with
    | nil => exact fun c hc => absurd hc List.not_mem_nil
    | cons d rest =>
        rw [hdrop] at hsuffix
        exact fun c hc => h c (hsuffix.subset (List.mem_cons_of_mem _ hc))
  have hpairs := joinPairs_plain params
  intro c hc
  rcases List.mem_append.mp hc with hc | hc
  · exact hfront c hc
  · rcases List.mem_cons.mp hc with rfl | hc
    · decide
    · unfold appendPairs at hc
      split at hc
      next => exact hpairs c hc
      next =>
        rcases List.mem_append.mp hc with hc | hc
        · exact hquery c hc
        · rcases List.mem_cons.mp hc with rfl | hc
          · decide
          · exact hpairs c hc

def plainUrls : UrlCrate { text : Str // IsPlainUrl text } where
  parse text := if h : IsPlainUrl text then some ⟨text, h⟩ else none
  text := Subtype.val
  host _ := none
  port _ := none
  path url := url.val.takeWhile (· ≠ '?')
  query url := queryAfter url.val
  extendPairs url params := ⟨appendToText url.val params, appendToText_plain url.property params⟩

theorem plainUrls_documented : plainUrls.Documented where
  parse_text url := dif_pos url.property
  query_extendPairs url params _ := queryAfter_append url.val params
  query_parse text url _ h := by
    have hparse : (if h : IsPlainUrl text then some ⟨text, h⟩ else none) = some url := h
    split at hparse
    next hplain =>
      cases hparse
      rw [rawQuery_plain hplain]
      rfl
    next => cases hparse

def localAdmin : AdminClient := ⟨"http://127.0.0.1:10000".toList, none, "us-east-1".toList⟩

theorem signed_queries_iff_plain :
    ((localAdmin.inspectObjectUrl plainUrls "b".toList "dir/k".toList).bind
            (signedQuery plainUrls) =
          some (standardQuery (objectParams "b".toList "dir/k".toList)) ∧
        (localAdmin.healObjectUrl plainUrls "b".toList "dir/k".toList).bind
            (signedQuery plainUrls) =
          some (standardQuery (objectParams "b".toList "dir/k".toList)) ∧
        (localAdmin.setBucketFttUrl plainUrls "b".toList 2).bind (signedQuery plainUrls) =
          some (standardQuery (fttParams 2))) ↔
      (rawQuery (localAdmin.url "object".toList) = [] ∧
        rawQuery (localAdmin.url "heal".toList) = [] ∧
        rawQuery (localAdmin.url (fttPath "b".toList)) = []) ∧
          SameEncoding "b".toList ∧ SameEncoding "dir/k".toList :=
  signed_queries_iff plainUrls_documented "b".toList "dir/k".toList 2 (by decide) (by decide)
    (by decide)

/-- A key with a space is signed with a plus. -/
theorem signed_query_with_space :
    (localAdmin.inspectObjectUrl plainUrls "b".toList "my file".toList).bind
        (signedQuery plainUrls) = some "bucket=b&key=my+file".toList ∧
      some "bucket=b&key=my+file".toList ≠
        some (standardQuery (objectParams "b".toList "my file".toList)) := by
  decide

end

end Admin

end AbixioUi
