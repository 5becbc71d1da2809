import AbixioUi.Browse.Shown

/-! # Selecting all objects

The list of objects shows the results of a search, or the listing, or that one of them
is on its way. Selecting all has a rule of its own, which marks the keys of both.
-/

namespace AbixioUi

open Foundation

/-! ## The rows of the list -/

/-- A row with a checkbox. -/
structure ObjectRow where
  key : Str
  displayKey : Str
  checked : Bool
  isSelected : Bool
deriving DecidableEq, Repr

namespace Browser

def objectRow (browser : Browser) (key displayKey : Str) : ObjectRow where
  key := key
  displayKey := displayKey
  checked := browser.app.selectedKeys.contains key
  isSelected :=
    match browser.app.selection with
    | .object _ selected => decide (selected = key)
    | _ => false

/-- The row of a listed object, unless the filter passes over it. -/
def listedRow (browser : Browser) (key : Str) : Option ObjectRow :=
  let filter := toAsciiLowercase browser.objectFilter
  let displayKey := (stripPrefix browser.app.currentPrefix key).getD key
  if filter ≠ [] ∧ contains (toAsciiLowercase displayKey) filter = false then none
  else some (browser.objectRow key displayKey)

/-- The rows with checkboxes: folders, headers and notes are left out. -/
def objectListView (browser : Browser) : List ObjectRow :=
  match browser.app.selectedBucket with
  | none => []
  | some _ =>
      match browser.findResults with
      | some ⟨.ok result, _⟩ => result.objects.map fun key => browser.objectRow key key
      | some ⟨.error _, _⟩ => []
      | none =>
          if browser.finding then []
          else if browser.app.loadingObjects then []
          else
            match browser.objects with
            | some ⟨.ok result, _⟩ => result.objects.filterMap browser.listedRow
            | _ => []

def displayedKeys (browser : Browser) : List Str := browser.objectListView.map (·.key)

/-- The keys of the listing that pass the filter. -/
def listedKeys (browser : Browser) : List Str :=
  match browser.objects with
  | some ⟨.ok result, _⟩ => result.objects.filter browser.showsKey
  | _ => []

/-- The keys that a search has found. -/
def foundKeys (browser : Browser) : List Str :=
  match browser.findResults with
  | some ⟨.ok result, _⟩ => result.objects
  | _ => []

/-- No search stands in front of the listing, and it is not being loaded again. -/
def ListingShown (browser : Browser) : Prop :=
  browser.findResults = none ∧ browser.finding = false ∧ browser.app.loadingObjects = false

instance (browser : Browser) : Decidable browser.ListingShown :=
  inferInstanceAs (Decidable (_ ∧ _ ∧ _))

theorem allKeys_eq (browser : Browser) :
    browser.allKeys = browser.listedKeys ++ browser.foundKeys := rfl

/-- The view and the handler filter the listing alike. -/
theorem filterMap_listedRow (browser : Browser) (keys : List Str) :
    (keys.filterMap browser.listedRow).map (·.key) = keys.filter browser.showsKey := by
  induction keys with
  | nil => rfl
  | cons key keys ih =>
      by_cases hshows : browser.showsKey key = true
      · have hrow : browser.listedRow key = some (browser.objectRow key
            ((stripPrefix browser.app.currentPrefix key).getD key)) := by
          simp only [showsKey, Bool.or_eq_true, decide_eq_true_eq] at hshows
          apply if_neg
          rintro ⟨hfilter, hnone⟩
          have hcontains := hshows.resolve_left hfilter
          rw [hnone] at hcontains
          cases hcontains
        rw [List.filterMap_cons_some hrow, List.filter_cons_of_pos hshows, List.map_cons, ih]
        rfl
      · have hrow : browser.listedRow key = none := by
          simp only [showsKey, Bool.or_eq_true, decide_eq_true_eq, not_or,
            Bool.not_eq_true] at hshows
          exact if_pos hshows
        rw [List.filterMap_cons_none hrow, List.filter_cons_of_neg hshows, ih]

theorem displayedKeys_of_listingShown {browser : Browser} {bucket : Str}
    (hbucket : browser.app.selectedBucket = some bucket) (h : browser.ListingShown) :
    browser.displayedKeys = browser.listedKeys := by
  obtain ⟨hfound, hfinding, hloading⟩ := h
  unfold displayedKeys objectListView listedKeys
  simp only [hbucket, hfound, hfinding, hloading, Bool.false_eq_true, if_false]
  split
  next => exact filterMap_listedRow browser _
  next => rfl

/-- Behind a search or while it is loaded again, the listing has no row. -/
theorem displayedKeys_of_not_listingShown {browser : Browser} {bucket : Str}
    (hbucket : browser.app.selectedBucket = some bucket) (h : ¬ browser.ListingShown) :
    browser.displayedKeys = browser.foundKeys := by
  unfold displayedKeys objectListView foundKeys
  simp only [hbucket]
  cases hfound : browser.findResults with
  | some found =>
      obtain ⟨result, asked⟩ := found
      cases result with
      | error error => rfl
      | ok result => simp [objectRow, Function.comp_def]
  | none =>
      by_cases hfinding : browser.finding = true
      · simp [hfinding]
      · have hloading : browser.app.loadingObjects = true := by
          by_contra hloaded
          exact h ⟨hfound, by simpa using hfinding, by simpa using hloaded⟩
        simp [hloading]

/-! ## What selecting all selects -/

/-- Selecting all marks what the view shows with a checkbox, and nothing else is new. -/
def SelectsShown (browser : Browser) : Prop :=
  (∀ key ∈ browser.handleSelectAllObjects.1.app.selectedKeys,
    key ∉ browser.app.selectedKeys → key ∈ browser.displayedKeys) ∧
  ∀ key ∈ browser.displayedKeys, key ∈ browser.handleSelectAllObjects.1.app.selectedKeys

theorem mem_handleSelectAllObjects {browser : Browser} {key : Str} :
    key ∈ browser.handleSelectAllObjects.1.app.selectedKeys ↔
      key ∈ browser.app.selectedKeys ∨ key ∈ browser.listedKeys ∨ key ∈ browser.foundKeys := by
  show key ∈ browser.allKeys.foldl insertKey browser.app.selectedKeys ↔ _
  rw [mem_insertKeys, allKeys_eq, List.mem_append]

end Browser

/-- Selecting all objects selects what is shown, exactly if the listing is what is shown
or every key of it that passes the filter is marked already or was found. -/
theorem selectAll_shown_iff (browser : Browser) {bucket : Str}
    (hbucket : browser.app.selectedBucket = some bucket) :
    browser.SelectsShown ↔
      browser.ListingShown ∨
        ∀ key ∈ browser.listedKeys, key ∈ browser.app.selectedKeys ∨ key ∈ browser.foundKeys := by
  unfold Browser.SelectsShown
  simp only [Browser.mem_handleSelectAllObjects]
  by_cases hshown : browser.ListingShown
  · have hkeys := Browser.displayedKeys_of_listingShown hbucket hshown
    have hnone : browser.foundKeys = [] := by
      unfold Browser.foundKeys
      rw [hshown.1]
    refine iff_of_true ⟨?_, ?_⟩ (.inl hshown)
    · rintro key (hkept | hlisted | hfound) hnew
      · exact absurd hkept hnew
      · rwa [hkeys]
      · rw [hnone] at hfound
        cases hfound
    · intro key hkey
      rw [hkeys] at hkey
      exact .inr (.inl hkey)
  · rw [Browser.displayedKeys_of_not_listingShown hbucket hshown, or_iff_right hshown]
    constructor
    · rintro ⟨hnew, -⟩ key hlisted
      by_cases hmarked : key ∈ browser.app.selectedKeys
      · exact .inl hmarked
      · exact .inr (hnew key (.inr (.inl hlisted)) hmarked)
    · intro hhidden
      refine ⟨?_, fun key hkey => .inr (.inr hkey)⟩
      rintro key (hkept | hlisted | hfound) hnew
      · exact absurd hkept hnew
      · exact (hhidden key hlisted).resolve_left hnew
      · exact hfound

/-! ## A search behind an edited filter -/

def listingOfTwo : BrowserReplies :=
  { emptyBrowserReplies with listing := .ok ⟨["a".toList, "b".toList], [], false⟩ }

/-- The user lists a bucket of two objects. -/
def listedBucket : List BrowserEvent :=
  [.user calm (.selectBucket "data".toList), .deliver calm 0 listingOfTwo]

/-- The user searches for one of them, and then clears the filter. -/
def searchedBucket : List BrowserEvent :=
  listedBucket ++
    [.user calm (.objectFilterChanged "a".toList),
      .user calm .find,
      .deliver calm 3 listingOfTwo,
      .user calm (.objectFilterChanged [])]

/-- Before the search the listing is what is shown. -/
theorem selectAll_shown_iff_listed :
    (run (BrowserWorld.step .unix unreadable) unconnectedBrowser
      listedBucket).browser.SelectsShown := by
  have hbucket : (run (BrowserWorld.step .unix unreadable) unconnectedBrowser
      listedBucket).browser.app.selectedBucket = some "data".toList := by decide
  refine (selectAll_shown_iff _ hbucket).mpr (.inl ⟨?_, by decide, by decide⟩)
  rfl

/-- After it selecting all marks an object that is not among the results on the screen. -/
theorem searched_bucket_selects_hidden :
    ¬ ∀ (browser : Browser) (bucket : Str), browser.app.selectedBucket = some bucket →
      browser.SelectsShown := by
  intro h
  have hbucket : (run (BrowserWorld.step .unix unreadable) unconnectedBrowser
      searchedBucket).browser.app.selectedBucket = some "data".toList := by decide
  have hmarked : (run (BrowserWorld.step .unix unreadable) unconnectedBrowser
      searchedBucket).browser.handleSelectAllObjects.1.app.selectedKeys =
        ["a".toList, "b".toList] := by decide
  have hbefore : (run (BrowserWorld.step .unix unreadable) unconnectedBrowser
      searchedBucket).browser.app.selectedKeys = [] := by decide
  have hdisplayed : (run (BrowserWorld.step .unix unreadable) unconnectedBrowser
      searchedBucket).browser.displayedKeys = ["a".toList] := by decide
  have hnew := (h _ _ hbucket).1 "b".toList
  rw [hmarked, hbefore, hdisplayed] at hnew
  exact absurd (hnew (by simp) List.not_mem_nil) (by decide)

end AbixioUi
