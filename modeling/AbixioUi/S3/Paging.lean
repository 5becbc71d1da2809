import AbixioUi.Foundation.Lists
import AbixioUi.Sync.Enumerate

/-! # Paging through a listing

A listing is fetched page by page: a truncated page is followed by the one that its
continuation token asks for. The responses of the server are given, and the loops read
as many of them as they ask for.
-/

namespace AbixioUi

open Foundation

namespace Paging

/-! ## Requests and responses -/

structure ListObjectsV2Request where
  bucket : Str
  keyPrefix : Str
  delimiter : Option Str
  continuationToken : Option Str
deriving DecidableEq, Repr

/-- An object of a page; the time is as it is shown. -/
structure ListedObject where
  key : Option Str
  size : Option Int
  lastModified : Option Str
  eTag : Option Str
deriving DecidableEq, Repr

structure ListObjectsV2Output where
  contents : List ListedObject
  commonPrefixes : List (Option Str)
  isTruncated : Option Bool
  nextContinuationToken : Option Str
deriving DecidableEq, Repr

/-- What is missing is empty; a negative size wraps around. -/
def ListedObject.toObjectInfo (object : ListedObject) : ObjectInfo where
  key := object.key.getD []
  size := (object.size.getD 0 % 2 ^ 64).toNat
  lastModified := object.lastModified.getD []
  etag := object.eTag.getD []

namespace ListObjectsV2Output

def objects (page : ListObjectsV2Output) : List ObjectInfo :=
  page.contents.map ListedObject.toObjectInfo

def truncated (page : ListObjectsV2Output) : Bool := page.isTruncated.getD false

/-- The loop stops at the page: it is the last one, or has no token for the next. -/
def stops (page : ListObjectsV2Output) : Bool :=
  !(page.truncated && page.nextContinuationToken.isSome)

end ListObjectsV2Output

theorem ListObjectsV2Output.truncated_of_goes {page : ListObjectsV2Output}
    (h : page.stops = false) : page.truncated = true := by
  simp only [stops, Bool.not_eq_false', Bool.and_eq_true] at h
  exact h.1

/-! ## The loops -/

/-- The objects with all that a page tells of them. -/
structure ListObjectsResult where
  objects : List ObjectInfo
  commonPrefixes : List Str
  isTruncated : Bool
deriving DecidableEq, Repr

/-- The requests sent, and the result unless the responses have run out. -/
structure Fetched where
  requests : List ListObjectsV2Request
  result : Option (Except String ListObjectsResult)

/-- The loop with what it has collected, before it sends a request with this token. -/
def fetchPages (request : Option Str → ListObjectsV2Request)
    (prefixesOf : ListObjectsV2Output → List Str) :
    ListObjectsResult → Option Str → List (Except String ListObjectsV2Output) → Fetched
  | _, continuationToken, [] => ⟨[request continuationToken], none⟩
  | _, continuationToken, .error error :: _ =>
      ⟨[request continuationToken], some (.error error)⟩
  | listing, continuationToken, .ok page :: responses =>
      let listing :=
        { listing with
          objects := listing.objects ++ page.objects
          commonPrefixes := listing.commonPrefixes ++ prefixesOf page }
      if page.truncated then
        let listing := { listing with isTruncated := true }
        match page.nextContinuationToken with
        | none => ⟨[request continuationToken], some (.ok listing)⟩
        | some next =>
            let rest := fetchPages request prefixesOf listing (some next) responses
            { rest with requests := request continuationToken :: rest.requests }
      else ⟨[request continuationToken], some (.ok listing)⟩

def listObjects (bucket keyPrefix delimiter : Str)
    (responses : List (Except String ListObjectsV2Output)) : Fetched :=
  fetchPages
    (fun continuationToken => ⟨bucket, keyPrefix, nonEmptyText delimiter, continuationToken⟩)
    (fun page => page.commonPrefixes.filterMap id) ⟨[], [], false⟩ none responses

def listObjectsRecursive (bucket keyPrefix : Str)
    (responses : List (Except String ListObjectsV2Output)) : Fetched :=
  fetchPages (fun continuationToken => ⟨bucket, keyPrefix, none, continuationToken⟩)
    (fun _ => []) ⟨[], [], false⟩ none responses

/-- The objects of the recursive listing; its flag is dropped. -/
def listObjectsRecursiveForSync (bucket keyPrefix : Str)
    (responses : List (Except String ListObjectsV2Output)) :
    Option (Except String (List SyncObject)) :=
  (listObjectsRecursive bucket keyPrefix responses).result.map fun result =>
    result.map fun listing => AbixioUi.listObjectsRecursiveForSync keyPrefix listing.objects

/-! ## What a loop returns -/

/-- The listing with what one page adds to it. -/
def ListObjectsResult.add (prefixesOf : ListObjectsV2Output → List Str)
    (listing : ListObjectsResult) (page : ListObjectsV2Output) : ListObjectsResult where
  objects := listing.objects ++ page.objects
  commonPrefixes := listing.commonPrefixes ++ prefixesOf page
  isTruncated := listing.isTruncated || page.truncated

section

variable {request : Option Str → ListObjectsV2Request} {prefixesOf : ListObjectsV2Output → List Str}
  {listing : ListObjectsResult} {token : Option Str} {page last : ListObjectsV2Output}
  {earlier pages : List ListObjectsV2Output} {responses : List (Except String ListObjectsV2Output)}

theorem fetchPages_stops (h : page.stops = true) :
    fetchPages request prefixesOf listing token (.ok page :: responses) =
      ⟨[request token], some (.ok (listing.add prefixesOf page))⟩ := by
  unfold fetchPages ListObjectsResult.add
  cases htruncated : page.truncated with
  | false => simp
  | true =>
      cases hnext : page.nextContinuationToken with
      | none => simp
      | some next => simp [ListObjectsV2Output.stops, htruncated, hnext] at h

theorem fetchPages_goes (h : page.stops = false) :
    (fetchPages request prefixesOf listing token (.ok page :: responses)).result =
        (fetchPages request prefixesOf (listing.add prefixesOf page) page.nextContinuationToken
          responses).result ∧
      (fetchPages request prefixesOf listing token (.ok page :: responses)).requests =
        request token ::
          (fetchPages request prefixesOf (listing.add prefixesOf page) page.nextContinuationToken
            responses).requests := by
  simp only [ListObjectsV2Output.stops, Bool.not_eq_false', Bool.and_eq_true,
    Option.isSome_iff_exists] at h
  obtain ⟨htruncated, next, hnext⟩ := h
  simp only [fetchPages, htruncated, hnext, if_true, ListObjectsResult.add, Bool.or_true, and_self]

/-- The pages up to the one that the loop stops at are put together in order, and the flag
is raised if any of them is truncated. -/
theorem fetchPages_result (hearlier : ∀ page ∈ earlier, page.stops = false)
    (hlast : last.stops = true) :
    (fetchPages request prefixesOf listing token
        (earlier.map .ok ++ .ok last :: responses)).result =
      some (.ok ((earlier ++ [last]).foldl (ListObjectsResult.add prefixesOf) listing)) := by
  induction earlier generalizing listing token with
  | nil => rw [List.map_nil, List.nil_append, fetchPages_stops hlast]; rfl
  | cons page earlier ih =>
      obtain ⟨hpage, hrest⟩ := List.forall_mem_cons.mp hearlier
      rw [List.map_cons, List.cons_append, (fetchPages_goes hpage).1, ih hrest]
      rfl

/-- While every page goes on, the loop waits for the next. -/
theorem fetchPages_waits (h : ∀ page ∈ pages, page.stops = false) :
    (fetchPages request prefixesOf listing token (pages.map .ok)).result = none := by
  induction pages generalizing listing token with
  | nil => rfl
  | cons page pages ih =>
      obtain ⟨hpage, hrest⟩ := List.forall_mem_cons.mp h
      rw [List.map_cons, (fetchPages_goes hpage).1, ih hrest]

/-- Each page is asked for with the token of the one before. -/
theorem fetchPages_requests (hearlier : ∀ page ∈ earlier, page.stops = false)
    (hlast : last.stops = true) :
    (fetchPages request prefixesOf listing token
        (earlier.map .ok ++ .ok last :: responses)).requests =
      (token :: earlier.map (·.nextContinuationToken)).map request := by
  induction earlier generalizing listing token with
  | nil => rw [List.map_nil, List.nil_append, fetchPages_stops hlast]; rfl
  | cons page earlier ih =>
      obtain ⟨hpage, hrest⟩ := List.forall_mem_cons.mp hearlier
      rw [List.map_cons, List.cons_append, (fetchPages_goes hpage).2, ih hrest]
      rfl

/-- An error on the way is the result. -/
theorem fetchPages_error (hearlier : ∀ page ∈ earlier, page.stops = false) (error : String) :
    (fetchPages request prefixesOf listing token
        (earlier.map .ok ++ .error error :: responses)).result = some (.error error) := by
  induction earlier generalizing listing token with
  | nil => rfl
  | cons page earlier ih =>
      obtain ⟨hpage, hrest⟩ := List.forall_mem_cons.mp hearlier
      rw [List.map_cons, List.cons_append, (fetchPages_goes hpage).1, ih hrest]

theorem foldl_add (pages : List ListObjectsV2Output) (listing : ListObjectsResult) :
    (pages.foldl (ListObjectsResult.add prefixesOf) listing).objects =
        listing.objects ++ pages.flatMap ListObjectsV2Output.objects ∧
      (pages.foldl (ListObjectsResult.add prefixesOf) listing).isTruncated =
        (listing.isTruncated || pages.any ListObjectsV2Output.truncated) := by
  induction pages generalizing listing with
  | nil => simp
  | cons page pages ih =>
      obtain ⟨hobjects, hflag⟩ := ih (listing.add prefixesOf page)
      rw [List.foldl_cons, hobjects, hflag]
      simp [ListObjectsResult.add, Bool.or_assoc]

end

/-! ## What the functions say -/

/-- The loop waits, or it returns the objects of the pages it fetched, and says that some
are unread exactly if the last of them was truncated. -/
def Tells (result : Option (Except String ListObjectsResult))
    (pages : List ListObjectsV2Output) : Prop :=
  (∀ page ∈ pages, page.stops = false) ∧ result = none ∨
    ∃ listing last, result = some (.ok listing) ∧
      listing.objects =
        (takeThrough ListObjectsV2Output.stops pages).flatMap ListObjectsV2Output.objects ∧
      (takeThrough ListObjectsV2Output.stops pages).getLast? = some last ∧
      (listing.isTruncated = true ↔ last.truncated = true)

/-- Both listings tell what they fetched, and the one for syncing is returned only if it
is complete. -/
structure PagesHonestly (bucket keyPrefix delimiter : Str)
    (pages : List ListObjectsV2Output) : Prop where
  listed : Tells (listObjects bucket keyPrefix delimiter (pages.map .ok)).result pages
  recursive : Tells (listObjectsRecursive bucket keyPrefix (pages.map .ok)).result pages
  complete : ∀ objects,
    listObjectsRecursiveForSync bucket keyPrefix (pages.map .ok) = some (.ok objects) →
      ∃ last, (takeThrough ListObjectsV2Output.stops pages).getLast? = some last ∧
        last.truncated = false

section

variable {request : Option Str → ListObjectsV2Request} {prefixesOf : ListObjectsV2Output → List Str}
  {pages earlier responses : List ListObjectsV2Output} {last : ListObjectsV2Output}

/-- The listing of the pages up to the one that the loop stops at. -/
theorem fetchPages_ok (hearlier : ∀ page ∈ earlier, page.stops = false)
    (hlast : last.stops = true) :
    ∃ listing, (fetchPages request prefixesOf ⟨[], [], false⟩ none
        ((earlier ++ last :: responses).map .ok)).result = some (.ok listing) ∧
      listing.objects = (earlier ++ [last]).flatMap ListObjectsV2Output.objects ∧
      listing.isTruncated = (earlier ++ [last]).any ListObjectsV2Output.truncated := by
  obtain ⟨hobjects, hflag⟩ := @foldl_add prefixesOf (earlier ++ [last]) ⟨[], [], false⟩
  refine ⟨_, ?_, hobjects, hflag⟩
  rw [List.map_append, List.map_cons, fetchPages_result hearlier hlast]

/-- What the loop says is right exactly if no page but the last is fetched, or that one is
truncated too. -/
theorem tells_iff (hearlier : ∀ page ∈ earlier, page.stops = false) (hlast : last.stops = true) :
    Tells (fetchPages request prefixesOf ⟨[], [], false⟩ none
        ((earlier ++ last :: responses).map .ok)).result (earlier ++ last :: responses) ↔
      earlier = [] ∨ last.truncated = true := by
  obtain ⟨listing, hresult, hobjects, hflag⟩ :=
    @fetchPages_ok request prefixesOf earlier responses last hearlier hlast
  have hfetched : takeThrough ListObjectsV2Output.stops (earlier ++ last :: responses) =
      earlier ++ [last] := takeThrough_append hearlier hlast
  have hend : (earlier ++ [last]).getLast? = some last := List.getLast?_concat
  constructor
  · rintro (⟨hgo, -⟩ | ⟨listing', last', hresult', -, hlast', htold⟩)
    · have hgoes := hgo last (List.mem_append_right _ List.mem_cons_self)
      rw [hlast] at hgoes
      cases hgoes
    · rw [hfetched, hend] at hlast'
      rw [hresult] at hresult'
      obtain rfl := Option.some.inj hlast'
      obtain rfl := Except.ok.inj (Option.some.inj hresult')
      by_cases hone : earlier = []
      · exact .inl hone
      · obtain ⟨page, hpage⟩ := List.exists_mem_of_ne_nil _ hone
        -- a page that is followed is truncated, and the flag stays up
        refine .inr (htold.mp ?_)
        rw [hflag, List.any_eq_true]
        exact ⟨page, List.mem_append_left _ hpage,
          ListObjectsV2Output.truncated_of_goes (hearlier page hpage)⟩
  · intro hright
    refine .inr ⟨listing, last, hresult, ?_, ?_, ?_⟩
    · rw [hfetched, hobjects]
    · rw [hfetched, hend]
    · rw [hflag]
      rcases hright with rfl | htruncated
      · simp
      · simp [htruncated]

/-- The listing for syncing is returned whether it is complete or not. -/
theorem complete_iff {bucket keyPrefix : Str} (hearlier : ∀ page ∈ earlier, page.stops = false)
    (hlast : last.stops = true) :
    (∀ objects,
        listObjectsRecursiveForSync bucket keyPrefix ((earlier ++ last :: responses).map .ok) =
            some (.ok objects) →
          ∃ page, (takeThrough ListObjectsV2Output.stops
            (earlier ++ last :: responses)).getLast? = some page ∧ page.truncated = false) ↔
      last.truncated = false := by
  obtain ⟨listing, hresult, -⟩ := @fetchPages_ok
    (fun continuationToken => ⟨bucket, keyPrefix, none, continuationToken⟩) (fun _ => [])
    earlier responses last hearlier hlast
  have hend : (takeThrough ListObjectsV2Output.stops
      (earlier ++ last :: responses)).getLast? = some last := by
    rw [takeThrough_append hearlier hlast]
    exact List.getLast?_concat
  constructor
  · intro h
    have hreturned : listObjectsRecursiveForSync bucket keyPrefix
        ((earlier ++ last :: responses).map .ok) =
          some (.ok (AbixioUi.listObjectsRecursiveForSync keyPrefix listing.objects)) := by
      rw [listObjectsRecursiveForSync, listObjectsRecursive, hresult]
      rfl
    obtain ⟨page, hpage, hwhole⟩ := h _ hreturned
    rw [hend] at hpage
    obtain rfl := Option.some.inj hpage
    exact hwhole
  · intro hwhole objects _
    exact ⟨last, hend, hwhole⟩

end

/-- The listings are honest about their pages exactly while the loop has not ended, or if
the first page is not truncated. -/
theorem pagesHonestly_iff (bucket keyPrefix delimiter : Str) (pages : List ListObjectsV2Output) :
    PagesHonestly bucket keyPrefix delimiter pages ↔
      (∀ page ∈ pages, page.stops = false) ∨
        ∃ first, pages.head? = some first ∧ first.truncated = false := by
  rcases exists_first_or_forall ListObjectsV2Output.stops pages with
    hgo | ⟨earlier, last, responses, rfl, hearlier, hlast⟩
  · refine iff_of_true ⟨.inl ⟨hgo, fetchPages_waits hgo⟩, .inl ⟨hgo, fetchPages_waits hgo⟩, ?_⟩
      (.inl hgo)
    intro objects hobjects
    rw [listObjectsRecursiveForSync, listObjectsRecursive, fetchPages_waits hgo] at hobjects
    cases hobjects
  · have hgoes : ¬ ∀ page ∈ earlier ++ last :: responses, page.stops = false := by
      intro hgo
      have hlast' := hgo last (List.mem_append_right _ List.mem_cons_self)
      rw [hlast] at hlast'
      cases hlast'
    have hcomplete := @complete_iff earlier responses last bucket keyPrefix hearlier hlast
    rw [or_iff_right hgoes]
    constructor
    · rintro ⟨hlisted, -, hsync⟩
      have hwhole := hcomplete.mp hsync
      have hone : earlier = [] := by
        rcases (tells_iff hearlier hlast).mp hlisted with hone | htruncated
        · exact hone
        · rw [hwhole] at htruncated
          cases htruncated
      rw [hone]
      exact ⟨last, rfl, hwhole⟩
    · rintro ⟨first, hfirst, hwhole⟩
      have hone : earlier = [] := by
        cases earlier with
        | nil => rfl
        | cons page earlier =>
            obtain rfl : page = first := Option.some.inj hfirst
            have htruncated := ListObjectsV2Output.truncated_of_goes
              (hearlier page List.mem_cons_self)
            rw [hwhole] at htruncated
            cases htruncated
      rw [hone] at hfirst
      obtain rfl : last = first := Option.some.inj hfirst
      exact ⟨(tells_iff hearlier hlast).mpr (.inl hone), (tells_iff hearlier hlast).mpr (.inl hone),
        hcomplete.mpr hwhole⟩

/-- A truncated page with one object and the token of the next, if it has one. -/
def truncatedPage (next : Option Str) : ListObjectsV2Output where
  contents := [⟨some "a".toList, some 1, none, none⟩]
  commonPrefixes := []
  isTruncated := some true
  nextContinuationToken := next

def lastPage : ListObjectsV2Output where
  contents := [⟨some "b".toList, some 2, none, none⟩]
  commonPrefixes := []
  isTruncated := some false
  nextContinuationToken := none

/-- A complete listing of two pages is said to be truncated, and a truncated one without a
token is returned for syncing. -/
theorem pages_not_honest :
    ¬ PagesHonestly "data".toList [] [] [truncatedPage (some "next".toList), lastPage] ∧
      ¬ PagesHonestly "data".toList [] [] [truncatedPage none] := by
  constructor
  · rintro ⟨hlisted, -, -⟩
    rcases hlisted with ⟨-, hwaits⟩ | ⟨listing, last, hresult, -, hlast, htold⟩
    · exact absurd hwaits (by decide)
    · obtain rfl : lastPage = last := Option.some.inj hlast
      obtain rfl := Except.ok.inj (Option.some.inj hresult)
      exact absurd (htold.mp rfl) (by decide)
  · rintro ⟨-, -, hcomplete⟩
    obtain ⟨last, hlast, hwhole⟩ := hcomplete [⟨"a".toList, 1, none, none, false⟩] (by decide)
    obtain rfl : truncatedPage none = last := Option.some.inj hlast
    exact absurd hwhole (by decide)

end Paging

end AbixioUi
