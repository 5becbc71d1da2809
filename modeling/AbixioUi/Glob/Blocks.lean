import AbixioUi.Glob.Components

/-! # Patterns with `**`

Between the `**` of a pattern stand blocks of components. The matcher splits the text
of the pattern instead, and trims the separators of what it gets: it searches for the
blocks without the empty components at their ends.
-/

namespace AbixioUi

open Foundation Foundation.Glob

def doubleStar : Str := ['*', '*']

/-- `**` is in no component but those that it is. -/
def DelimitsDoubleStars (components : List Str) : Prop :=
  ∀ c ∈ components, doubleStar <:+: c → c = doubleStar

instance (components : List Str) : Decidable (DelimitsDoubleStars components) :=
  inferInstanceAs (Decidable (∀ c ∈ components, _ → _))

theorem pathComponents_toAsciiLowercase (s : Str) :
    pathComponents (toAsciiLowercase s) = (pathComponents s).map toAsciiLowercase := by
  have hslash : ∀ a : Str, '/' ∈ toAsciiLowercase a ↔ '/' ∈ a := by
    intro a
    constructor
    · intro h
      obtain ⟨c, hc, heq⟩ := List.mem_map.mp h
      exact (toLower_eq_iff (by decide)).mp heq ▸ hc
    · exact fun h => List.mem_map.mpr ⟨'/', h, rfl⟩
  induction s using path_induction with
  | last a ha =>
      rw [pathComponents_of_no_slash ha, pathComponents_of_no_slash (mt (hslash a).mp ha)]
      rfl
  | next a b ha ih =>
      have happend : toAsciiLowercase (a ++ '/' :: b) =
          toAsciiLowercase a ++ '/' :: toAsciiLowercase b := by
        simp [toAsciiLowercase]
      rw [happend, pathComponents_append_slash (mt (hslash a).mp ha), ih,
        pathComponents_append_slash ha, List.map_cons]

section Folding

variable {pattern : Str}

/-- Folding the case changes no `**`. -/
theorem DelimitsDoubleStars.toLower (h : DelimitsDoubleStars (pathComponents pattern)) :
    DelimitsDoubleStars (pathComponents (toAsciiLowercase pattern)) := by
  have hstar : ∀ c ∈ doubleStar, c.toNat < 65 := by simp [doubleStar]
  rw [pathComponents_toAsciiLowercase]
  intro c hc hdoubled
  obtain ⟨d, hd, rfl⟩ := List.mem_map.mp hc
  rw [h d hd ((infix_toAsciiLowercase_iff hstar).mp hdoubled)]
  rfl

end Folding

def pathToken (component : Str) : Token Str :=
  if component = doubleStar then .many else .one component

/-- The components before, between and behind the `**`. -/
def blocks : List Str → List (List Str)
  | [] => [[]]
  | c :: components =>
      if c = doubleStar then [] :: blocks components
      else (blocks components).modifyHead (c :: ·)

/-- The pattern of blocks with a `**` between them. -/
def blocksPattern : List (List Str) → List (Token Str)
  | [] => []
  | [block] => block.map .one
  | block :: rest => block.map .one ++ .many :: blocksPattern rest

theorem blocks_ne_nil (components : List Str) : blocks components ≠ [] := by
  induction components with
  | nil => exact List.cons_ne_nil _ _
  | cons c components ih =>
      rw [blocks]
      split
      next => exact List.cons_ne_nil _ _
      next => simpa using ih

theorem blocksPattern_cons (block : List Str) {rest : List (List Str)} (h : rest ≠ []) :
    blocksPattern (block :: rest) = block.map .one ++ .many :: blocksPattern rest := by
  cases rest with
  | nil => exact absurd rfl h
  | cons _ _ => rfl

theorem ones_blocksPattern (bs : List (List Str)) : ones (blocksPattern bs) = bs.flatten := by
  induction bs with
  | nil => rfl
  | cons block rest ih =>
      by_cases hne : rest = []
      · subst hne
        rw [blocksPattern, ones_map_one, List.flatten_singleton]
      · rw [blocksPattern_cons block hne, ones_append, ones_map_one, ones_many, ih,
          List.flatten_cons]

theorem blocksPattern_last {bs : List (List Str)} {block : List Str} (hmany : 2 ≤ bs.length)
    (hlast : bs.getLast? = some block) :
    ∃ front, blocksPattern bs = front ++ .many :: block.map .one := by
  induction bs with
  | nil => cases hlast
  | cons first rest ih =>
      have hne : rest ≠ [] := by
        rintro rfl
        simp at hmany
      rw [blocksPattern_cons first hne]
      rw [List.getLast?_cons_of_ne_nil hne] at hlast
      by_cases hrest : 2 ≤ rest.length
      · obtain ⟨front, hfront⟩ := ih hrest hlast
        exact ⟨first.map .one ++ .many :: front, by rw [hfront, List.append_assoc]; rfl⟩
      · obtain ⟨other, rfl⟩ : ∃ other, rest = [other] := by
          refine List.length_eq_one_iff.mp ?_
          have hpos := List.length_pos_iff.mpr hne
          omega
        obtain rfl := Option.some.inj hlast
        exact ⟨first.map .one, rfl⟩

theorem map_pathToken (components : List Str) :
    components.map pathToken = blocksPattern (blocks components) := by
  induction components with
  | nil => rfl
  | cons c components ih =>
      rw [List.map_cons, ih, blocks, pathToken]
      split
      next => rw [blocksPattern_cons _ (blocks_ne_nil components)]; rfl
      next =>
        cases hblocks : blocks components with
        | nil => exact absurd hblocks (blocks_ne_nil components)
        | cons block rest => cases rest <;> rfl

/-! ## Splitting -/

/-- The components of a block, each with a separator behind it. -/
def closedText (block : List Str) : Str := block.flatMap (· ++ ['/'])

/-- The texts between the `**`: separators stand next to a `**`. -/
def segmentTexts : Bool → List (List Str) → List Str
  | _, [] => []
  | opened, [block] =>
      [(if opened ∧ block ≠ [] then ['/'] else []) ++ joinComponents block]
  | opened, block :: rest =>
      ((if opened then ['/'] else []) ++ closedText block) :: segmentTexts true rest

theorem segmentTexts_cons (opened : Bool) (block : List Str) {rest : List (List Str)}
    (h : rest ≠ []) : segmentTexts opened (block :: rest) =
      ((if opened then ['/'] else []) ++ closedText block) :: segmentTexts true rest := by
  cases rest with
  | nil => exact absurd rfl h
  | cons _ _ => rfl

section Splitting

variable {s : Str} {components : List Str}

theorem splitDoubleStar_ne_nil (s : Str) : splitDoubleStar s ≠ [] := by
  induction s using splitDoubleStar.induct with
  | case1 s _ => simp [splitDoubleStar]
  | case2 => simp [splitDoubleStar]
  | case3 c s _ hnil ih => exact absurd hnil ih
  | case4 c s hne segment segments hs ih => simp [splitDoubleStar, hs]

/-- A character that starts no `**` is of the first segment. -/
theorem splitDoubleStar_cons {c : Char} (h : ∀ rest, c :: s ≠ '*' :: '*' :: rest) :
    splitDoubleStar (c :: s) = (splitDoubleStar s).modifyHead (c :: ·) := by
  rw [splitDoubleStar]
  · cases hsplit : splitDoubleStar s with
    | nil => exact absurd hsplit (splitDoubleStar_ne_nil s)
    | cons segment segments => rfl
  · rintro rest rfl rfl
    exact h rest rfl

/-- A component without a `**` and its separator are of the first segment. -/
theorem splitDoubleStar_append {c : Str} (h : ¬ doubleStar <:+: c) (s : Str) :
    splitDoubleStar (c ++ '/' :: s) = (splitDoubleStar s).modifyHead (c ++ '/' :: ·) := by
  induction c with
  | nil => exact splitDoubleStar_cons fun rest => by simp
  | cons x c ih =>
      have hrest : ¬ doubleStar <:+: c := fun hdoubled =>
        h (hdoubled.trans (List.suffix_cons x c).isInfix)
      rw [List.cons_append, splitDoubleStar_cons, ih hrest, List.modifyHead_modifyHead]
      · rfl
      · intro rest heq
        obtain ⟨rfl, htail⟩ := List.cons.inj heq
        cases c with
        | nil => simp at htail
        | cons y c =>
            obtain ⟨rfl, -⟩ := List.cons.inj htail
            exact h ⟨[], c, rfl⟩

theorem splitDoubleStar_of_undoubled {c : Str} (h : ¬ doubleStar <:+: c) :
    splitDoubleStar c = [c] := by
  induction c with
  | nil => rfl
  | cons x c ih =>
      have hrest : ¬ doubleStar <:+: c := fun hdoubled =>
        h (hdoubled.trans (List.suffix_cons x c).isInfix)
      rw [splitDoubleStar_cons, ih hrest]
      · rfl
      · intro rest heq
        exact h ⟨[], rest, heq.symm⟩

/-- Behind a `**` the next segment starts with the separator. -/
theorem segmentTexts_opened {bs : List (List Str)} (h : bs ≠ [[]]) :
    segmentTexts true bs = (segmentTexts false bs).modifyHead ('/' :: ·) := by
  match bs with
  | [] => rfl
  | [block] =>
      have hblock : block ≠ [] := fun heq => h (heq ▸ rfl)
      simp [segmentTexts, hblock]
  | block :: next :: rest => simp [segmentTexts]

theorem blocks_ne_singleton_nil (h : components ≠ []) : blocks components ≠ [[]] := by
  cases components with
  | nil => exact absurd rfl h
  | cons c components =>
      rw [blocks]
      split
      next => simpa using blocks_ne_nil components
      next =>
        cases hblocks : blocks components with
        | nil => exact absurd hblocks (blocks_ne_nil components)
        | cons block rest => simp

/-- Splitting the text of a pattern at `**` splits its components there. -/
theorem splitDoubleStar_join (hne : components ≠ [])
    (h : ∀ c ∈ components, doubleStar <:+: c → c = doubleStar) :
    splitDoubleStar (joinComponents components) = segmentTexts false (blocks components) := by
  induction components with
  | nil => exact absurd rfl hne
  | cons c components ih =>
      obtain ⟨hc, hcomponents⟩ := List.forall_mem_cons.mp h
      by_cases hlast : components = []
      · subst hlast
        rw [joinComponents_singleton, blocks]
        split
        next hdouble => rw [hdouble]; rfl
        next hdouble =>
          rw [splitDoubleStar_of_undoubled fun hdoubled => hdouble (hc hdoubled)]
          simp [blocks, segmentTexts]
      · rw [joinComponents_cons c hlast, blocks]
        split
        next hdouble =>
          have hslash : splitDoubleStar ('/' :: joinComponents components) =
              (splitDoubleStar (joinComponents components)).modifyHead ('/' :: ·) :=
            splitDoubleStar_cons fun rest => by simp
          rw [hdouble, segmentTexts_cons _ _ (blocks_ne_nil components),
            segmentTexts_opened (blocks_ne_singleton_nil hlast), ← ih hlast hcomponents, ← hslash]
          rfl
        next hdouble =>
          rw [splitDoubleStar_append (fun hdoubled => hdouble (hc hdoubled)), ih hlast hcomponents]
          match hblocks : blocks components with
          | [] => exact absurd hblocks (blocks_ne_nil components)
          | [block] =>
              have hblock : block ≠ [] := by
                rintro rfl
                exact blocks_ne_singleton_nil hlast hblocks
              simp [segmentTexts, joinComponents_cons c hblock]
          | block :: next :: rest => simp [segmentTexts, closedText]

end Splitting

/-! ## Trimming -/

/-- A block without the empty components at its ends. -/
def trimEmpty (block : List Str) : List Str := trimBoth List.isEmpty block

/-- The components that the matcher searches for. -/
def searchedBlock (segment : Str) : List Str :=
  if trimSlashes segment = [] then [] else pathComponents (trimSlashes segment)

section Trimming

variable {s : Str} {block : List Str}

theorem isEmpty_of_mem_replicate {n : Nat} {c : Str} (h : c ∈ List.replicate n ([] : Str)) :
    c.isEmpty = true := by
  rw [List.eq_of_mem_replicate h]
  rfl

/-- Empty components around a block are trimmed with its own. -/
theorem trimEmpty_pad (i j : Nat) (block : List Str) :
    trimEmpty (List.replicate i [] ++ block ++ List.replicate j []) = trimEmpty block :=
  trimBoth_append (fun _ hc => isEmpty_of_mem_replicate hc)
    (fun _ hc => isEmpty_of_mem_replicate hc) block

theorem pathComponents_replicate_append (i : Nat) (s : Str) :
    pathComponents (List.replicate i '/' ++ s) = List.replicate i [] ++ pathComponents s := by
  induction i with
  | zero => rfl
  | succ i ih =>
      rw [List.replicate_succ, List.cons_append, pathComponents_slash, ih]
      rfl

theorem pathComponents_append_replicate (s : Str) (j : Nat) :
    pathComponents (s ++ List.replicate j '/') = pathComponents s ++ List.replicate j [] := by
  have hslashes : pathComponents (List.replicate j '/') = List.replicate (j + 1) [] := by
    rw [← List.append_nil (List.replicate j '/'), pathComponents_replicate_append]
    exact List.replicate_succ'.symm
  induction s using path_induction with
  | last a ha =>
      rw [pathComponents_append ha, hslashes, pathComponents_of_no_slash ha, List.replicate_succ]
      simp
  | next a b ha ih =>
      rw [List.append_assoc, List.cons_append, pathComponents_append_slash ha,
        pathComponents_append_slash ha, ih]
      rfl

/-- The matcher searches for the components of the segment, the empty ones at its ends
aside. -/
theorem searchedBlock_eq (segment : Str) :
    searchedBlock segment = trimEmpty (pathComponents segment) := by
  have htrim : trimSlashes segment = trimBoth (· == '/') segment := rfl
  obtain ⟨front, back, hsegment, hfront, hback⟩ := trimBoth_spec (· == '/') segment
  have hfront' : front = List.replicate front.length '/' :=
    List.eq_replicate_of_mem fun c hc => by simpa using hfront c hc
  have hback' : back = List.replicate back.length '/' :=
    List.eq_replicate_of_mem fun c hc => by simpa using hback c hc
  rw [← htrim, hfront', hback'] at hsegment
  rw [searchedBlock]
  have hcomponents : pathComponents segment = List.replicate front.length [] ++
      pathComponents (trimSlashes segment) ++ List.replicate back.length [] := by
    conv_lhs => rw [hsegment]
    rw [pathComponents_append_replicate, pathComponents_replicate_append]
  rw [hcomponents, trimEmpty_pad]
  split
  next hnil =>
    rw [hnil]
    rfl
  next hne =>
    refine (trimBoth_of_ends (fun c hc => ?_) fun c hc => ?_).symm
    · cases c with
      | cons _ _ => rfl
      | nil =>
          have hhead := (head_slash_of_head_empty hc).resolve_left hne
          exact absurd (trimBoth_head (htrim ▸ hhead)) (by decide)
    · cases c with
      | cons _ _ => rfl
      | nil =>
          have hlast := (last_slash_of_last_empty hc).resolve_left hne
          exact absurd (trimBoth_last (htrim ▸ hlast)) (by decide)

/-- The block of a segment whose components are a block between empty ones. -/
theorem searchedBlock_of_pad {segment : Str} (i j : Nat)
    (h : pathComponents segment = List.replicate i [] ++ block ++ List.replicate j []) :
    searchedBlock segment = trimEmpty block := by
  rw [searchedBlock_eq, h, trimEmpty_pad]

theorem pathComponents_closedText (h : ∀ c ∈ block, '/' ∉ c) :
    pathComponents (closedText block) = block ++ [[]] := by
  induction block with
  | nil => rfl
  | cons c block ih =>
      obtain ⟨hc, hblock⟩ := List.forall_mem_cons.mp h
      rw [closedText, List.flatMap_cons, List.append_assoc, List.singleton_append,
        pathComponents_append_slash hc]
      exact congrArg (c :: ·) (ih hblock)

theorem searchedBlock_closedText (opened : Bool) (h : ∀ c ∈ block, '/' ∉ c) :
    searchedBlock ((if opened then ['/'] else []) ++ closedText block) = trimEmpty block := by
  cases opened with
  | false => exact searchedBlock_of_pad 0 1 (pathComponents_closedText h)
  | true =>
      refine searchedBlock_of_pad 1 1 ?_
      rw [if_pos rfl, List.singleton_append, pathComponents_slash, pathComponents_closedText h]
      rfl

theorem searchedBlock_last (opened : Bool) (h : ∀ c ∈ block, '/' ∉ c) :
    searchedBlock ((if opened ∧ block ≠ [] then ['/'] else []) ++ joinComponents block) =
      trimEmpty block := by
  by_cases hne : block = []
  · subst hne
    simp [joinComponents, searchedBlock, trimSlashes, trimStartMatches, trimEndMatches,
      trimEmpty, trimBoth]
  · cases opened with
    | false =>
        refine searchedBlock_of_pad 0 0 ?_
        simpa using pathComponents_join hne h
    | true =>
        refine searchedBlock_of_pad 1 0 ?_
        simpa [hne] using pathComponents_join hne h

theorem eq_nil_of_trimEmpty_nil (h : trimEmpty block = []) : ∀ c ∈ block, c = [] := by
  obtain ⟨front, back, hblock, hfront, hback⟩ := trimBoth_spec List.isEmpty block
  rw [show trimBoth List.isEmpty block = [] from h, List.append_nil] at hblock
  intro c hc
  rw [hblock] at hc
  rcases List.mem_append.mp hc with hc | hc
  · exact List.isEmpty_iff.mp (hfront c hc)
  · exact List.isEmpty_iff.mp (hback c hc)

theorem infix_of_trimEmpty (block : List Str) : trimEmpty block <:+: block := by
  obtain ⟨front, back, hblock, -, -⟩ := trimBoth_spec List.isEmpty block
  exact ⟨front, back, hblock.symm⟩

theorem length_flatten_map_trimEmpty (bs : List (List Str)) :
    (bs.map trimEmpty).flatten.length ≤ bs.flatten.length := by
  induction bs with
  | nil => exact le_rfl
  | cons block bs ih =>
      have hblock := (infix_of_trimEmpty block).length_le
      rw [List.map_cons, List.flatten_cons, List.flatten_cons, List.length_append,
        List.length_append]
      omega

/-- Where no component is lost, nothing is trimmed. -/
theorem trimEmpty_of_length {bs : List (List Str)}
    (h : bs.flatten.length ≤ (bs.map trimEmpty).flatten.length) :
    ∀ block ∈ bs, trimEmpty block = block := by
  induction bs with
  | nil => simp
  | cons block bs ih =>
      have hblock := infix_of_trimEmpty block
      have hlength := hblock.length_le
      have hbs := length_flatten_map_trimEmpty bs
      rw [List.map_cons, List.flatten_cons, List.flatten_cons, List.length_append,
        List.length_append] at h
      exact List.forall_mem_cons.mpr ⟨hblock.eq_of_length (by omega), ih (by omega)⟩

/-- The matcher searches for the blocks, the empty components at their ends aside. -/
theorem map_searchedBlock (opened : Bool) {bs : List (List Str)}
    (h : ∀ block ∈ bs, ∀ c ∈ block, '/' ∉ c) :
    (segmentTexts opened bs).map searchedBlock = bs.map trimEmpty := by
  induction bs generalizing opened with
  | nil => rfl
  | cons block rest ih =>
      obtain ⟨hblock, hrest⟩ := List.forall_mem_cons.mp h
      by_cases hne : rest = []
      · subst hne
        rw [segmentTexts, List.map_singleton, searchedBlock_last opened hblock, List.map_singleton]
      · rw [segmentTexts_cons opened block hne, List.map_cons,
          searchedBlock_closedText opened hblock, ih true hrest, List.map_cons]

/-- The last segment is empty exactly where the pattern ends with a `**`. -/
theorem segmentTexts_last (opened : Bool) {bs : List (List Str)}
    (hmany : opened = true ∨ 2 ≤ bs.length) :
    (segmentTexts opened bs).getLast? = some [] ↔ bs.getLast? = some [] := by
  induction bs generalizing opened with
  | nil => simp [segmentTexts]
  | cons block rest ih =>
      by_cases hne : rest = []
      · subst hne
        have hopened : opened = true := hmany.resolve_right (by simp)
        by_cases hblock : block = []
        · simp [segmentTexts, hblock, joinComponents]
        · simp [segmentTexts, hblock, hopened]
      · have htexts : segmentTexts true rest ≠ [] := by
          cases rest with
          | nil => exact absurd rfl hne
          | cons block rest => cases rest <;> exact List.cons_ne_nil _ _
        rw [segmentTexts_cons opened block hne, List.getLast?_cons_of_ne_nil htexts,
          ih true (.inl rfl), List.getLast?_cons_of_ne_nil hne]

end Trimming

end AbixioUi
