import AbixioUi.Admin.Signing
import AbixioUi.Foundation.PrefixCode

/-! # What a signature of the admin client covers

The text that is signed lists the method, the path, the sorted query, the host and the
time of a request, line by line. No line can be mistaken for two, the pieces of the query
can be told apart, and the form encoding can be read back: so the text of a request about
an object is the text of no other request.
-/

namespace AbixioUi

open Foundation

namespace Admin

/-! ## The canonical query -/

def queryPieces (query : Str) : List Str := splitAtChars (· == '&') query

theorem not_amp_of_mem_pieces {query piece : Str} (h : piece ∈ queryPieces query) :
    ∀ c ∈ piece, (c == '&') = false :=
  splitAtChars_mem_no_sep h

theorem canonicalQueryString_eq (query : Str) :
    canonicalQueryString query =
      ['&'].intercalate ((queryPieces query).insertionSort (· ≤ ·)) := by
  unfold canonicalQueryString
  split
  next hnil =>
    rw [hnil]
    rfl
  next => rfl

/-- The pieces of the canonical query are those of the query, sorted. -/
theorem queryPieces_canonical (query : Str) :
    queryPieces (canonicalQueryString query) = (queryPieces query).insertionSort (· ≤ ·) := by
  rw [canonicalQueryString_eq]
  apply splitAtChars_intercalate (by decide)
  · intro hnil
    have hperm := List.perm_insertionSort (· ≤ ·) (queryPieces query)
    rw [hnil] at hperm
    exact splitAtChars_ne_nil _ query hperm.symm.eq_nil
  · intro piece hpiece
    exact not_amp_of_mem_pieces ((List.mem_insertionSort _).mp hpiece)

/-- Two queries have one canonical query exactly if they have the same pieces. -/
theorem canonicalQueryString_eq_iff {query query' : Str} :
    canonicalQueryString query = canonicalQueryString query' ↔
      (queryPieces query).Perm (queryPieces query') := by
  constructor
  · intro heq
    have hpieces := congrArg queryPieces heq
    rw [queryPieces_canonical, queryPieces_canonical] at hpieces
    exact (List.perm_insertionSort (· ≤ ·) _).symm.trans
      (hpieces ▸ List.perm_insertionSort (· ≤ ·) _)
  · intro hperm
    have hpieces : ((queryPieces query).insertionSort (· ≤ ·)).Perm
        ((queryPieces query').insertionSort (· ≤ ·)) :=
      (List.perm_insertionSort _ _).trans (hperm.trans (List.perm_insertionSort _ _).symm)
    have hsorted := hpieces.eq_of_sortedLE List.sortedLE_insertionSort
      List.sortedLE_insertionSort
    rw [canonicalQueryString_eq, canonicalQueryString_eq, hsorted]

/-- One encoded parameter. -/
def queryPiece (param : Str × Str) : Str := formEncode param.1 ++ '=' :: formEncode param.2

/-- Parameters are pieces of their own, after those that were there. -/
theorem queryPieces_appendPairs {params : List (Str × Str)} (hne : params ≠ []) (query : Str) :
    queryPieces (appendPairs query params) =
      (if query = [] then [] else queryPieces query) ++ params.map queryPiece := by
  have hparams : queryPieces (joinPairs formEncode params) = params.map queryPiece := by
    apply splitAtChars_intercalate (by decide) (by simpa using hne)
    intro piece hpiece c hc
    rw [beq_eq_false_iff_ne]
    intro hamp
    rw [hamp] at hc
    exact not_mem_pairs formEncode_ne_amp (by decide) piece hpiece hc
  unfold appendPairs
  split
  next => exact hparams
  next => rw [queryPieces, splitAtChars_append (by decide), ← queryPieces, ← queryPieces, hparams]

/-- Whatever the query was before, parameters about two objects are told apart. -/
theorem canonicalQuery_objectParams_inj {query bucket key bucket' key' : Str} :
    canonicalQueryString (appendPairs query (AdminClient.objectParams bucket key)) =
        canonicalQueryString (appendPairs query (AdminClient.objectParams bucket' key')) ↔
      bucket = bucket' ∧ key = key' := by
  constructor
  · intro heq
    have hne : ∀ b k, AdminClient.objectParams b k ≠ [] := fun _ _ => List.cons_ne_nil _ _
    rw [canonicalQueryString_eq_iff, queryPieces_appendPairs (hne _ _),
      queryPieces_appendPairs (hne _ _), List.perm_append_left_iff] at heq
    have hdiffer : ∀ x y, queryPiece ("bucket".toList, x) ≠ queryPiece ("key".toList, y) := by
      intro x y hpiece
      exact absurd (List.cons.inj hpiece).1 (by decide)
    have hbucket : queryPiece ("bucket".toList, bucket) ∈
        [queryPiece ("bucket".toList, bucket'), queryPiece ("key".toList, key')] :=
      heq.subset (List.mem_cons_self)
    have hkey : queryPiece ("key".toList, key) ∈
        [queryPiece ("bucket".toList, bucket'), queryPiece ("key".toList, key')] :=
      heq.subset (List.mem_cons_of_mem _ List.mem_cons_self)
    have hvalue : ∀ name x y, queryPiece (name, x) = queryPiece (name, y) → x = y := by
      intro name x y hpiece
      exact formEncode_inj.mp (List.cons.inj (List.append_cancel_left hpiece)).2
    constructor
    · rcases List.mem_pair.mp hbucket with h | h
      · exact hvalue _ _ _ h
      · exact absurd h (hdiffer _ _)
    · rcases List.mem_pair.mp hkey with h | h
      · exact absurd h.symm (hdiffer _ _)
      · exact hvalue _ _ _ h
  · rintro ⟨rfl, rfl⟩
    rfl

/-! ## The lines of the text -/

section

variable {υ : Type}

/-- No part of a URL holds a newline: parsing drops them. -/
structure UrlCrate.OneLine (crate : UrlCrate υ) : Prop where
  host : ∀ url host, crate.host url = some host → '\n' ∉ host
  path : ∀ url, '\n' ∉ crate.path url
  query : ∀ url query, crate.query url = some query → '\n' ∉ query

variable {crate : UrlCrate υ}

theorem newline_not_mem_canonical {query : Str} (h : '\n' ∉ query) :
    '\n' ∉ canonicalQueryString query := by
  rw [canonicalQueryString_eq]
  intro hmem
  rcases mem_intercalate hmem with hsep | ⟨piece, hpiece, hmem⟩
  · exact absurd (List.mem_singleton.mp hsep) (by decide)
  · exact h (splitAtChars_mem_subset ((List.mem_insertionSort _).mp hpiece) _ hmem)

theorem UrlCrate.OneLine.canonicalQuery (h : crate.OneLine) (url : υ) :
    '\n' ∉ canonicalQuery crate url := by
  apply newline_not_mem_canonical
  cases hquery : crate.query url with
  | none => exact List.not_mem_nil
  | some query => exact h.query url query hquery

theorem UrlCrate.OneLine.hostHeader (h : crate.OneLine) (url : υ) :
    '\n' ∉ hostHeader crate url := by
  have hhost : '\n' ∉ (crate.host url).getD "localhost".toList := by
    cases hname : crate.host url with
    | none => decide
    | some host => exact h.host url host hname
  unfold Admin.hostHeader
  cases crate.port url with
  | none => exact hhost
  | some port =>
      intro hmem
      rcases List.mem_append.mp hmem with hmem | hmem
      · exact hhost hmem
      · rcases List.mem_cons.mp hmem with hmem | hmem
        · exact absurd hmem (by decide)
        · rw [Nat.toList_repr] at hmem
          exact absurd (Nat.isDigit_of_mem_toDigits (by decide) (by decide) hmem) (by decide)

/-- A text of lines is read line by line. -/
theorem line_inj {line line' rest rest' : Str} (h : '\n' ∉ line) (h' : '\n' ∉ line')
    (heq : line ++ '\n' :: rest = line' ++ '\n' :: rest') : line = line' ∧ rest = rest' := by
  have hfirst : ∀ line rest : Str, '\n' ∉ line →
      (line ++ '\n' :: rest).takeWhile (· ≠ '\n') = line := by
    intro line rest hline
    rw [List.takeWhile_append_of_pos]
    · simp
    · intro c hc
      exact decide_eq_true fun hnewline => hline (hnewline ▸ hc)
  have hline := congrArg (List.takeWhile (· ≠ '\n')) heq
  rw [hfirst _ _ h, hfirst _ _ h'] at hline
  subst hline
  exact ⟨rfl, (List.cons.inj (List.append_cancel_left heq)).2⟩

/-- The text that is signed shows what it was made from. -/
theorem canonicalRequest_inj (hcrate : crate.OneLine) {stamps stamps' : Stamps}
    {method method' : Str} {url url' : υ} (hmethod : '\n' ∉ method) (hmethod' : '\n' ∉ method')
    (heq : canonicalRequest crate stamps method url = canonicalRequest crate stamps' method' url') :
    method = method' ∧ crate.path url = crate.path url' ∧
      canonicalQuery crate url = canonicalQuery crate url' ∧
      hostHeader crate url = hostHeader crate url' ∧ stamps.time = stamps'.time := by
  have hlines : ∀ (stamps : Stamps) (method : Str) (url : υ),
      canonicalRequest crate stamps method url =
        method ++ '\n' :: (crate.path url ++ '\n' :: (canonicalQuery crate url ++ '\n' ::
          ("host:".toList ++ (hostHeader crate url ++ '\n' ::
            ("x-amz-content-sha256:".toList ++ EMPTY_SHA256 ++ "\nx-amz-date:".toList ++
              (stamps.time ++ ("\n\n".toList ++ signedHeaders ++ '\n' :: EMPTY_SHA256))))))) := by
    intro stamps method url
    simp [canonicalRequest, List.intercalate]
  rw [hlines, hlines] at heq
  obtain ⟨hsame, heq⟩ := line_inj hmethod hmethod' heq
  obtain ⟨hpath, heq⟩ := line_inj (hcrate.path url) (hcrate.path url') heq
  obtain ⟨hquery, heq⟩ := line_inj (hcrate.canonicalQuery url) (hcrate.canonicalQuery url') heq
  obtain ⟨hhost, heq⟩ := line_inj (hcrate.hostHeader url) (hcrate.hostHeader url')
    (List.append_cancel_left heq)
  exact ⟨hsame, hpath, hquery, hhost, List.append_cancel_right (List.append_cancel_left heq)⟩

end

/-! ## Requests about objects -/

inductive ObjectRequest
  | inspect (bucket key : Str)
  | heal (bucket key : Str)
deriving DecidableEq, Repr

namespace ObjectRequest

def method : ObjectRequest → Str
  | .inspect _ _ => "GET".toList
  | .heal _ _ => "POST".toList

def params : ObjectRequest → List (Str × Str)
  | .inspect bucket key | .heal bucket key => AdminClient.objectParams bucket key

section

variable {υ : Type} (crate : UrlCrate υ) (client : AdminClient)

def urlText : ObjectRequest → Option Str
  | .inspect bucket key => client.inspectObjectUrl crate bucket key
  | .heal bucket key => client.healObjectUrl crate bucket key

/-- The text that the request is signed over; `none` is a panic on the endpoint. -/
def signedText (stamps : Stamps) (request : ObjectRequest) : Option Str :=
  (request.urlText crate client).bind fun text =>
    (crate.parse text).map (canonicalRequest crate stamps request.method)

end

variable {υ : Type} {crate : UrlCrate υ} {client : AdminClient}

theorem signedText_eq (hcrate : crate.Documented) {path : Str} {base : υ}
    (hbase : crate.parse (client.url path) = some base) (request : ObjectRequest)
    (hurl : request.urlText crate client = client.urlWithQuery crate path request.params)
    (stamps : Stamps) :
    request.signedText crate client stamps =
      some (canonicalRequest crate stamps request.method
        (crate.extendPairs base request.params)) := by
  rw [signedText, hurl, AdminClient.urlWithQuery, hbase, Option.map_some, Option.bind_some,
    hcrate.parse_text, Option.map_some]

/-- The query that is signed for parameters appended to a URL. -/
theorem canonicalQuery_extendPairs (hcrate : crate.Documented) (base : υ)
    {params : List (Str × Str)} (hne : params ≠ []) :
    canonicalQuery crate (crate.extendPairs base params) =
      canonicalQueryString (appendPairs ((crate.query base).getD []) params) := by
  rw [canonicalQuery, hcrate.query_extendPairs base params hne]
  rfl

end ObjectRequest

/-- Requests about an object have one signed text exactly if they ask for the same thing of
the same object at the same time, whatever characters are in its bucket and key. -/
theorem signed_text_identifies {υ : Type} {crate : UrlCrate υ} {client : AdminClient}
    (hcrate : crate.Documented) (hlines : crate.OneLine)
    (hobject : (crate.parse (client.url "object".toList)).isSome)
    (hheal : (crate.parse (client.url "heal".toList)).isSome)
    (stamps stamps' : Stamps) (request request' : ObjectRequest) :
    request.signedText crate client stamps = request'.signedText crate client stamps' ↔
      request = request' ∧ stamps.time = stamps'.time := by
  obtain ⟨object, hobject⟩ := Option.isSome_iff_exists.mp hobject
  obtain ⟨heal, hheal⟩ := Option.isSome_iff_exists.mp hheal
  have hinspects : ∀ stamps bucket key, (ObjectRequest.inspect bucket key).signedText crate client
      stamps = some (canonicalRequest crate stamps "GET".toList
        (crate.extendPairs object (AdminClient.objectParams bucket key))) :=
    fun stamps bucket key => ObjectRequest.signedText_eq hcrate hobject (.inspect bucket key) rfl
      stamps
  have hheals : ∀ stamps bucket key, (ObjectRequest.heal bucket key).signedText crate client
      stamps = some (canonicalRequest crate stamps "POST".toList
        (crate.extendPairs heal (AdminClient.objectParams bucket key))) :=
    fun stamps bucket key => ObjectRequest.signedText_eq hcrate hheal (.heal bucket key) rfl stamps
  have hsame : ∀ {base : υ} {bucket key bucket' key' : Str},
      canonicalQuery crate (crate.extendPairs base (AdminClient.objectParams bucket key)) =
          canonicalQuery crate (crate.extendPairs base (AdminClient.objectParams bucket' key')) →
        bucket = bucket' ∧ key = key' := by
    intro base bucket key bucket' key' hquery
    have hne : ∀ b k, AdminClient.objectParams b k ≠ [] := fun _ _ => List.cons_ne_nil _ _
    rw [ObjectRequest.canonicalQuery_extendPairs hcrate base (hne _ _),
      ObjectRequest.canonicalQuery_extendPairs hcrate base (hne _ _)] at hquery
    exact canonicalQuery_objectParams_inj.mp hquery
  constructor
  · intro heq
    cases request with
    | inspect bucket key =>
        cases request' with
        | inspect bucket' key' =>
            rw [hinspects, hinspects] at heq
            obtain ⟨-, -, hquery, -, htime⟩ := canonicalRequest_inj hlines (by decide) (by decide)
              (Option.some.inj heq)
            obtain ⟨rfl, rfl⟩ := hsame hquery
            exact ⟨rfl, htime⟩
        | heal bucket' key' =>
            rw [hinspects, hheals] at heq
            exact absurd (canonicalRequest_inj hlines (by decide) (by decide)
              (Option.some.inj heq)).1 (by decide)
    | heal bucket key =>
        cases request' with
        | inspect bucket' key' =>
            rw [hinspects, hheals] at heq
            exact absurd (canonicalRequest_inj hlines (by decide) (by decide)
              (Option.some.inj heq)).1 (by decide)
        | heal bucket' key' =>
            rw [hheals, hheals] at heq
            obtain ⟨-, -, hquery, -, htime⟩ := canonicalRequest_inj hlines (by decide) (by decide)
              (Option.some.inj heq)
            obtain ⟨rfl, rfl⟩ := hsame hquery
            exact ⟨rfl, htime⟩
  · rintro ⟨rfl, htime⟩
    have hstamps : ∀ method url, canonicalRequest crate stamps method url =
        canonicalRequest crate stamps' method url := by
      intro method url
      rw [canonicalRequest, canonicalRequest, htime]
    cases request with
    | inspect bucket key => rw [hinspects, hinspects, hstamps]
    | heal bucket key => rw [hheals, hheals, hstamps]

theorem plainUrls_oneLine : plainUrls.OneLine where
  host _ _ h := by cases h
  path url h :=
    (url.property '\n' ((List.takeWhile_sublist _).subset h)).2.2.1 rfl
  query url query h hmem := by
    have hsuffix := List.dropWhile_suffix (l := url.val) (· ≠ '?')
    have hquery : queryAfter url.val = some query := h
    unfold queryAfter at hquery
    cases hdrop : url.val.dropWhile (· ≠ '?') with
    | nil =>
        rw [hdrop] at hquery
        cases hquery
    | cons c rest =>
        rw [hdrop] at hquery hsuffix
        have hrest : rest = query := Option.some.inj hquery
        rw [← hrest] at hmem
        exact (url.property '\n' (hsuffix.subset (List.mem_cons_of_mem _ hmem))).2.2.1 rfl

def midnight : Stamps := ⟨"20260101".toList, "20260101T000000Z".toList⟩

/-- A slash in the key is no way to another object. -/
theorem signed_text_identifies_slash :
    (ObjectRequest.heal "b".toList "dir/k".toList).signedText plainUrls localAdmin midnight ≠
      (ObjectRequest.heal "b/dir".toList "k".toList).signedText plainUrls localAdmin midnight := by
  intro heq
  have hsame := (signed_text_identifies plainUrls_documented plainUrls_oneLine (by decide)
    (by decide) midnight midnight _ _).mp heq
  exact absurd hsame.1 (by decide)

end Admin

end AbixioUi
