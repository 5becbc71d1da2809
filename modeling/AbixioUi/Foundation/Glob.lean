import AbixioUi.Foundation.Lists
import Mathlib.Data.List.Infix

/-! # Patterns with gaps

A pattern is a list of tokens. The token `one p` takes one item that `p` accepts, and
`many` takes any number of items that may be skipped. Characters and the components of
a path are both matched this way.
-/

namespace AbixioUi.Foundation.Glob

universe u v

inductive Token (ρ : Type u) where
  | many
  | one (p : ρ)
deriving DecidableEq, Repr

variable {ρ : Type u} {α : Type v} {accepts : ρ → α → Prop} {skips : α → Prop}

/-- The items are what the tokens take, in order. -/
inductive Matches (accepts : ρ → α → Prop) (skips : α → Prop) : List (Token ρ) → List α → Prop
  | nil : Matches accepts skips [] []
  | one {p a pattern items} : accepts p a → Matches accepts skips pattern items →
      Matches accepts skips (.one p :: pattern) (a :: items)
  | stop {pattern items} : Matches accepts skips pattern items →
      Matches accepts skips (.many :: pattern) items
  | skip {a pattern items} : skips a → Matches accepts skips (.many :: pattern) items →
      Matches accepts skips (.many :: pattern) (a :: items)

/-! ## Inversion -/

section Inversion

variable {pattern pattern' : List (Token ρ)} {items : List α} {p : ρ} {a : α}

@[simp] theorem matches_nil_iff : Matches accepts skips [] items ↔ items = [] := by
  constructor
  · intro h
    cases h
    rfl
  · rintro rfl
    exact .nil

@[simp] theorem matches_one_cons_iff :
    Matches accepts skips (.one p :: pattern) (a :: items) ↔
      accepts p a ∧ Matches accepts skips pattern items := by
  constructor
  · intro h
    cases h with
    | one haccepts hrest => exact ⟨haccepts, hrest⟩
  · exact fun h => .one h.1 h.2

@[simp] theorem not_matches_one_nil : ¬ Matches accepts skips (.one p :: pattern) [] := by
  intro h
  cases h

/-- A gap takes a front of items that may be skipped. -/
theorem matches_many_iff :
    Matches accepts skips (.many :: pattern) items ↔
      ∃ front rest, items = front ++ rest ∧ (∀ a ∈ front, skips a) ∧
        Matches accepts skips pattern rest := by
  constructor
  · intro h
    generalize hgap : Token.many :: pattern = gap at h
    induction h with
    | nil => cases hgap
    | one _ _ _ => cases hgap
    | stop hrest _ =>
        obtain ⟨-, rfl⟩ := List.cons.inj hgap
        exact ⟨[], _, rfl, by simp, hrest⟩
    | @skip a _ _ hskip _ ih =>
        obtain ⟨front, rest, rfl, hfront, hrest⟩ := ih hgap
        exact ⟨a :: front, rest, rfl, List.forall_mem_cons.mpr ⟨hskip, hfront⟩, hrest⟩
  · rintro ⟨front, rest, rfl, hfront, hrest⟩
    induction front with
    | nil => exact .stop hrest
    | cons a front ih =>
        obtain ⟨ha, hfront⟩ := List.forall_mem_cons.mp hfront
        exact .skip ha (ih hfront)

/-- No items are matched by gaps only. -/
theorem matches_nil_right_iff :
    Matches accepts skips pattern [] ↔ ∀ token ∈ pattern, token = .many := by
  induction pattern with
  | nil => simp
  | cons token pattern ih =>
      cases token with
      | one p => simp
      | many =>
          rw [List.forall_mem_cons, ← ih]
          constructor
          · intro h
            cases h with
            | stop hrest => exact ⟨rfl, hrest⟩
          · exact fun h => .stop h.2

theorem matches_append_iff :
    Matches accepts skips (pattern ++ pattern') items ↔
      ∃ front rest, items = front ++ rest ∧ Matches accepts skips pattern front ∧
        Matches accepts skips pattern' rest := by
  induction pattern generalizing items with
  | nil => simp
  | cons token pattern ih =>
      cases token with
      | one p =>
          cases items with
          | nil => simp
          | cons a items =>
              rw [List.cons_append, matches_one_cons_iff, ih]
              constructor
              · rintro ⟨ha, front, rest, rfl, hfront, hrest⟩
                exact ⟨a :: front, rest, rfl, .one ha hfront, hrest⟩
              · rintro ⟨front, rest, hitems, hfront, hrest⟩
                cases hfront with
                | one ha hfront =>
                    obtain ⟨rfl, rfl⟩ := List.cons.inj hitems
                    exact ⟨ha, _, rest, rfl, hfront, hrest⟩
      | many =>
          rw [List.cons_append, matches_many_iff]
          constructor
          · rintro ⟨gap, rest, rfl, hgap, hrest⟩
            obtain ⟨front, rest, rfl, hfront, hrest⟩ := ih.mp hrest
            exact ⟨gap ++ front, rest, by simp, matches_many_iff.mpr
              ⟨gap, front, rfl, hgap, hfront⟩, hrest⟩
          · rintro ⟨front, rest, rfl, hfront, hrest⟩
            obtain ⟨gap, front, rfl, hgap, hfront⟩ := matches_many_iff.mp hfront
            exact ⟨gap, front ++ rest, by simp, hgap, ih.mpr ⟨front, rest, rfl, hfront, hrest⟩⟩

/-- A pattern without gaps takes the items one by one. -/
theorem matches_fixed_iff {ps : List ρ} :
    Matches accepts skips (ps.map .one) items ↔ List.Forall₂ accepts ps items := by
  induction ps generalizing items with
  | nil => simp [List.forall₂_nil_left_iff]
  | cons p ps ih => cases items <;> simp [ih]

/-- A property of what the tokens accept and of what may be skipped holds of all items. -/
theorem Matches.forall_mem {P : α → Prop} (h : Matches accepts skips pattern items)
    (haccepts : ∀ p a, .one p ∈ pattern → accepts p a → P a) (hskips : ∀ a, skips a → P a) :
    ∀ a ∈ items, P a := by
  induction h with
  | nil => simp
  | one ha _ ih =>
      refine List.forall_mem_cons.mpr ⟨haccepts _ _ List.mem_cons_self ha, ih ?_⟩
      exact fun p a hp => haccepts p a (List.mem_cons_of_mem _ hp)
  | stop _ ih => exact ih fun p a hp => haccepts p a (List.mem_cons_of_mem _ hp)
  | skip ha _ ih => exact List.forall_mem_cons.mpr ⟨hskips _ ha, ih haccepts⟩

end Inversion

/-! ## What the single tokens take -/

section Ones

variable {pattern : List (Token ρ)} {items : List α}

/-- The tokens that take one item each. -/
def ones (pattern : List (Token ρ)) : List ρ :=
  pattern.filterMap fun
    | .one p => some p
    | .many => none

@[simp] theorem ones_one (p : ρ) (pattern : List (Token ρ)) :
    ones (.one p :: pattern) = p :: ones pattern := rfl

@[simp] theorem ones_many (pattern : List (Token ρ)) : ones (.many :: pattern) = ones pattern := rfl

@[simp] theorem ones_append (pattern pattern' : List (Token ρ)) :
    ones (pattern ++ pattern') = ones pattern ++ ones pattern' := List.filterMap_append

@[simp] theorem ones_map_one (ps : List ρ) : ones (ps.map .one) = ps := by
  induction ps with
  | nil => rfl
  | cons p ps ih => rw [List.map_cons, ones_one, ih]

theorem Matches.length_ones_le (h : Matches accepts skips pattern items) :
    (ones pattern).length ≤ items.length := by
  induction h with
  | nil => exact le_rfl
  | one _ _ ih => exact Nat.succ_le_succ ih
  | stop _ ih => exact ih
  | skip _ _ ih => exact ih.trans (Nat.le_succ _)

/-- With no item to spare, the gaps take none. -/
theorem Matches.forall₂_ones (h : Matches accepts skips pattern items)
    (hlength : items.length ≤ (ones pattern).length) :
    List.Forall₂ accepts (ones pattern) items := by
  induction h with
  | nil => exact .nil
  | one ha _ ih => exact .cons ha (ih (Nat.le_of_succ_le_succ hlength))
  | stop _ ih => exact ih hlength
  | skip _ hrest _ => exact absurd (hlength.trans hrest.length_ones_le) (Nat.not_succ_le_self _)

theorem Matches.exists_accepts {p : ρ} (h : Matches accepts skips pattern items)
    (hp : p ∈ ones pattern) : ∃ a ∈ items, accepts p a := by
  induction h with
  | nil => cases hp
  | @one p' a _ _ ha _ ih =>
      rcases List.mem_cons.mp hp with rfl | hp
      · exact ⟨a, List.mem_cons_self, ha⟩
      · obtain ⟨b, hb, haccepts⟩ := ih hp
        exact ⟨b, List.mem_cons_of_mem a hb, haccepts⟩
  | stop _ ih => exact ih hp
  | skip _ _ ih =>
      obtain ⟨b, hb, haccepts⟩ := ih hp
      exact ⟨b, List.mem_cons_of_mem _ hb, haccepts⟩

/-- A gap among tokens that take whatever may be skipped: the number of items decides. -/
theorem matches_of_length (hfree : ∀ p ∈ ones pattern, ∀ a, skips a → accepts p a)
    (hitems : ∀ a ∈ items, skips a) (hlength : (ones pattern).length ≤ items.length) :
    Matches accepts skips (.many :: pattern) items := by
  induction pattern generalizing items with
  | nil => exact matches_many_iff.mpr ⟨items, [], by simp, hitems, .nil⟩
  | cons token pattern ih =>
      cases token with
      | many => exact .stop (ih hfree hitems hlength)
      | one p =>
          obtain ⟨hp, hfree⟩ := List.forall_mem_cons.mp hfree
          cases items with
          | nil => simp at hlength
          | cons a items =>
              obtain ⟨ha, hitems⟩ := List.forall_mem_cons.mp hitems
              have hrest := ih hfree hitems (by simpa using hlength)
              obtain ⟨front, rest, rfl, hfront, hmatch⟩ := matches_many_iff.mp hrest
              -- The last of the items before the rest goes to the token, the gap takes the others.
              obtain ⟨init, last, hsplit⟩ : ∃ init last, a :: front = init ++ [last] :=
                ⟨_, _, (List.dropLast_append_getLast (List.cons_ne_nil a front)).symm⟩
              have hall : ∀ b ∈ init ++ [last], skips b :=
                hsplit ▸ List.forall_mem_cons.mpr ⟨ha, hfront⟩
              obtain ⟨hinit, hlast⟩ := List.forall_mem_append.mp hall
              refine matches_many_iff.mpr ⟨init, last :: rest, ?_, hinit, ?_⟩
              · rw [← List.cons_append, hsplit, List.append_assoc]
                rfl
              · exact .one (hp last (hlast last List.mem_cons_self)) hmatch

end Ones

/-! ## Backtracking to the last gap -/

section Backtracking

variable {ps : List ρ} {found rest gap found' rest' : List α}

/-- Tokens that match here and again behind a gap are as good here: a gap behind them
takes what lies between. A token must not accept both an item that may be skipped and
one that may not. -/
theorem gap_of_later (hrigid : ∀ p a b, accepts p a → accepts p b → skips a → skips b)
    (hfound : List.Forall₂ accepts ps found) (hfound' : List.Forall₂ accepts ps found')
    (hgap : ∀ a ∈ gap, skips a) (h : found ++ rest = gap ++ (found' ++ rest')) :
    ∃ gap', rest = gap' ++ rest' ∧ ∀ a ∈ gap', skips a := by
  have hlength : found.length = found'.length :=
    hfound.length_eq.symm.trans hfound'.length_eq
  rw [← List.append_assoc] at h
  obtain ⟨gap', hfront, hrest⟩ : ∃ gap', gap ++ found' = found ++ gap' ∧ rest = gap' ++ rest' := by
    rcases List.append_eq_append_iff.mp h with ⟨between, hfront, hrest⟩ | ⟨between, hfront, hrest⟩
    · exact ⟨between, hfront, hrest⟩
    · -- The found items are not longer than the gap and the items found behind it.
      have hlen := congrArg List.length hfront
      simp only [List.length_append] at hlen
      obtain rfl := List.length_eq_zero_iff.mp (show between.length = 0 by omega)
      exact ⟨[], by simpa using hfront.symm, by simpa using hrest.symm⟩
  refine ⟨gap', hrest, ?_⟩
  -- By the distance to the start: an item behind the gap is taken by a token that takes
  -- an earlier item too.
  have hall : ∀ (n : Nat) (a : α), gap ≠ [] → (gap ++ found')[n]? = some a → skips a := by
    intro n
    induction n using Nat.strong_induction_on with
    | _ n ih =>
        intro a hne ha
        by_cases hn : n < gap.length
        · rw [List.getElem?_append_left hn] at ha
          exact hgap a (List.mem_of_getElem? ha)
        · rw [List.getElem?_append_right (by omega)] at ha
          have hlt := (List.getElem?_eq_some_iff.mp ha).1
          obtain ⟨b, hb⟩ : ∃ b, found[n - gap.length]? = some b :=
            ⟨_, List.getElem?_eq_getElem (by omega)⟩
          obtain ⟨p, hp⟩ : ∃ p, ps[n - gap.length]? = some p :=
            ⟨_, List.getElem?_eq_getElem (by have := hfound.length_eq; omega)⟩
          have hpos := List.length_pos_iff.mpr hne
          have hearlier : (gap ++ found')[n - gap.length]? = some b := by
            rw [hfront, List.getElem?_append_left (List.getElem?_eq_some_iff.mp hb).1, hb]
          exact hrigid p b a (forall₂_getElem? hfound hp hb) (forall₂_getElem? hfound' hp ha)
            (ih _ (by omega) b hne hearlier)
  intro a ha
  have hne : gap ≠ [] := by
    rintro rfl
    have hlen := congrArg List.length hfront
    simp only [List.nil_append, List.length_append] at hlen
    have hpos := List.length_pos_of_mem ha
    omega
  obtain ⟨n, hn⟩ := List.mem_iff_getElem?.mp (hfront ▸ List.mem_append_right found ha)
  exact hall n a hne hn

end Backtracking

/-! ## Placing blocks from left to right -/

/-- The first items are taken by the tokens one by one. -/
def Begins (accepts : ρ → α → Prop) (ps : List ρ) (items : List α) : Prop :=
  List.Forall₂ accepts ps (items.take ps.length)

section Blocks

variable {ps : List ρ} {pattern : List (Token ρ)} {items found : List α}

@[simp] theorem begins_nil : Begins accepts [] items := .nil

@[simp] theorem begins_cons_iff {p : ρ} {a : α} :
    Begins accepts (p :: ps) (a :: items) ↔ accepts p a ∧ Begins accepts ps items := by
  rw [Begins, List.length_cons, List.take_succ_cons, List.forall₂_cons]
  exact Iff.rfl

@[simp] theorem not_begins_cons_nil {p : ρ} : ¬ Begins accepts (p :: ps) ([] : List α) := by
  intro h
  cases h

theorem Begins.length_le (h : Begins accepts ps items) : ps.length ≤ items.length := by
  have hlength := h.length_eq
  rw [List.length_take] at hlength
  omega

theorem begins_append {front : List α} (h : List.Forall₂ accepts ps front) (rest : List α) :
    Begins accepts ps (front ++ rest) := by
  rw [Begins, h.length_eq, List.take_left]
  exact h

theorem matches_block_iff :
    Matches accepts skips (ps.map .one ++ pattern) items ↔
      Begins accepts ps items ∧ Matches accepts skips pattern (items.drop ps.length) := by
  rw [matches_append_iff]
  constructor
  · rintro ⟨front, rest, rfl, hfront, hrest⟩
    have hblock := matches_fixed_iff.mp hfront
    refine ⟨begins_append hblock rest, ?_⟩
    rwa [hblock.length_eq, List.drop_left]
  · rintro ⟨hbegins, hrest⟩
    exact ⟨_, _, (List.take_append_drop ps.length items).symm, matches_fixed_iff.mpr hbegins, hrest⟩

theorem drop_suffix_drop {rest : List α} (h : rest <:+ items) (n : Nat) :
    rest.drop n <:+ items.drop n := by
  rw [List.suffix_iff_eq_drop.mp h, List.drop_drop]
  exact List.drop_suffix_drop_left items (Nat.le_add_left n _)

variable (hfree : ∀ a, skips a)

include hfree

/-- A gap over any items leaves any rest of them. -/
theorem matches_many_iff_suffix :
    Matches accepts skips (.many :: pattern) items ↔
      ∃ rest, rest <:+ items ∧ Matches accepts skips pattern rest := by
  rw [matches_many_iff]
  constructor
  · rintro ⟨front, rest, rfl, -, hrest⟩
    exact ⟨rest, List.suffix_append front rest, hrest⟩
  · rintro ⟨rest, ⟨front, rfl⟩, hrest⟩
    exact ⟨front, rest, rfl, fun a _ => hfree a, hrest⟩

theorem Matches.many_mono {rest : List α} (h : Matches accepts skips (.many :: pattern) rest)
    (hsuffix : rest <:+ items) : Matches accepts skips (.many :: pattern) items := by
  obtain ⟨last, hlast, hmatch⟩ := (matches_many_iff_suffix hfree).mp h
  exact (matches_many_iff_suffix hfree).mpr ⟨last, hlast.trans hsuffix, hmatch⟩

theorem matches_many_many_iff :
    Matches accepts skips (.many :: .many :: pattern) items ↔
      Matches accepts skips (.many :: pattern) items := by
  constructor
  · intro h
    obtain ⟨rest, hsuffix, hrest⟩ := (matches_many_iff_suffix hfree).mp h
    exact hrest.many_mono hfree hsuffix
  · exact .stop

/-- A block between two gaps is placed where it first fits. -/
theorem matches_many_block_iff (hfound : found <:+ items) (hbegins : Begins accepts ps found)
    (hfirst : ∀ other, other <:+ items → Begins accepts ps other → other <:+ found) :
    Matches accepts skips (.many :: (ps.map .one ++ .many :: pattern)) items ↔
      Matches accepts skips (.many :: pattern) (found.drop ps.length) := by
  constructor
  · intro h
    obtain ⟨rest, hsuffix, hrest⟩ := (matches_many_iff_suffix hfree).mp h
    obtain ⟨hother, hlater⟩ := matches_block_iff.mp hrest
    exact hlater.many_mono hfree (drop_suffix_drop (hfirst rest hsuffix hother) ps.length)
  · intro h
    exact (matches_many_iff_suffix hfree).mpr
      ⟨found, hfound, matches_block_iff.mpr ⟨hbegins, h⟩⟩

/-- A block that fits nowhere is not matched. -/
theorem not_matches_many_block (hnowhere : ∀ other, other <:+ items → ¬ Begins accepts ps other) :
    ¬ Matches accepts skips (.many :: (ps.map .one ++ pattern)) items := by
  intro h
  obtain ⟨rest, hsuffix, hrest⟩ := (matches_many_iff_suffix hfree).mp h
  exact hnowhere rest hsuffix (matches_block_iff.mp hrest).1

/-- The last tokens take the last items of any longer list that starts alike. -/
theorem Matches.again {front : List (Token ρ)} {items' : List α} (hne : ps ≠ [])
    (h : Matches accepts skips (front ++ .many :: ps.map .one) items)
    (hstarts : items.dropLast <+: items') :
    Matches accepts skips (front ++ .many :: ps.map .one) (items' ++ items) := by
  obtain ⟨taken, rest, rfl, htaken, hrest⟩ := matches_append_iff.mp h
  have hrest_ne : rest ≠ [] := by
    rintro rfl
    have hlength := hrest.length_ones_le
    rw [ones_many, ones_map_one] at hlength
    exact hne (List.length_eq_zero_iff.mp (Nat.le_zero.mp hlength))
  rw [List.dropLast_append_of_ne_nil hrest_ne] at hstarts
  obtain ⟨others, rfl⟩ := (List.prefix_append taken _).trans hstarts
  refine matches_append_iff.mpr ⟨taken, others ++ (taken ++ rest), by simp, htaken, ?_⟩
  refine hrest.many_mono hfree ?_
  exact (List.suffix_append taken rest).trans (List.suffix_append others _)

end Blocks

end AbixioUi.Foundation.Glob
