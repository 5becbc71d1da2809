import AbixioUi.Foundation.Numerals
import Mathlib.Data.Char
import Mathlib.Data.List.Lex
import Mathlib.Order.Compare
import Mathlib.Order.Monotone.Basic
import Mathlib.Tactic.IntervalCases

/-! # UTC timestamps and their texts

A timestamp is a date, a time of the day, and the digits that its text shows behind
the seconds. Its instant counts nanoseconds. Instants and texts are both compared by
parts, most significant first, and the parts agree up to the fraction.
-/

namespace AbixioUi.Foundation

/-! ## Comparing by parts -/

/-- The comparison of a linear order. -/
def order {α : Type} [LinearOrder α] (a b : α) : Ordering := cmp a b

section

variable {α : Type} [LinearOrder α] {a b : α}

theorem order_of_lt (h : a < b) : order a b = .lt := h.cmp_eq_lt

theorem order_of_gt (h : b < a) : order a b = .gt := h.cmp_eq_gt

@[simp] theorem order_self (a : α) : order a a = .eq := cmp_self_eq_eq a

theorem order_eq_lt_iff : order a b = .lt ↔ a < b := cmp_eq_lt_iff a b

theorem order_eq_eq_iff : order a b = .eq ↔ a = b := cmp_eq_eq_iff a b

theorem order_eq_gt_iff : order a b = .gt ↔ b < a := cmp_eq_gt_iff a b

/-- Two comparisons agree when they agree on what is smaller. -/
theorem order_eq_order {β : Type} [LinearOrder β] {x y : β} (hlt : a < b ↔ x < y)
    (hgt : b < a ↔ y < x) : order a b = order x y := by
  rcases lt_trichotomy a b with hab | hab | hab
  · rw [order_of_lt hab, order_of_lt (hlt.mp hab)]
  · have hx : ¬ x < y := fun h => (hlt.mpr h).ne hab
    have hy : ¬ y < x := fun h => (hgt.mpr h).ne hab.symm
    rw [order_eq_eq_iff.mpr hab, order_eq_eq_iff.mpr (le_antisymm (not_lt.mp hy) (not_lt.mp hx))]
  · rw [order_of_gt hab, order_of_gt (hgt.mp hab)]

/-- The rest is looked at only where the first parts are equal. -/
theorem then_congr {o p q : Ordering} (h : o = .eq → p = q) : o.then p = o.then q := by
  cases o with
  | lt => rfl
  | eq => exact h rfl
  | gt => rfl

theorem order_cons (a b : α) (s t : List α) :
    order (a :: s) (b :: t) = (order a b).then (order s t) := by
  rcases lt_trichotomy a b with hlt | heq | hgt
  · rw [order_of_lt hlt]
    apply order_of_lt
    exact List.cons_lt_cons_iff.mpr (.inl hlt)
  · subst heq
    rw [order_self]
    apply order_eq_order
    · exact List.cons_lt_cons_iff.trans (by simp)
    · exact List.cons_lt_cons_iff.trans (by simp)
  · rw [order_of_gt hgt]
    apply order_of_gt
    exact List.cons_lt_cons_iff.mpr (.inl hgt)

@[simp] theorem order_cons_self (a : α) (s t : List α) : order (a :: s) (a :: t) = order s t := by
  rw [order_cons, order_self]
  rfl

end

/-- Numbers in consecutive blocks are compared by block, then inside their block. -/
theorem order_blocks {start length : Nat → Nat} (hstart : ∀ n, start n + length n ≤ start (n + 1))
    {a b x y : Nat} (hx : x < length a) (hy : y < length b) :
    order (start a + x) (start b + y) = (order a b).then (order x y) := by
  have hmono : Monotone start := by
    apply monotone_nat_of_le_succ
    intro n
    have hn := hstart n
    omega
  rcases lt_trichotomy a b with hlt | heq | hgt
  · have ha := hstart a
    have hb : start (a + 1) ≤ start b := hmono hlt
    rw [order_of_lt hlt]
    apply order_of_lt
    omega
  · subst heq
    rw [order_self]
    apply order_eq_order <;> omega
  · have hb := hstart b
    have ha : start (b + 1) ≤ start a := hmono hgt
    rw [order_of_gt hgt]
    apply order_of_gt
    omega

theorem order_mixedRadix {base a b x y : Nat} (hx : x < base) (hy : y < base) :
    order (a * base + x) (b * base + y) = (order a b).then (order x y) := by
  apply @order_blocks (· * base) (fun _ => base)
  · intro n
    simp only [Nat.succ_mul]
    omega
  · exact hx
  · exact hy

/-! ## Numbers of a fixed width -/

/-- The last digits of a number, as many as the width asks for. -/
def pad : Nat → Nat → Str
  | 0, _ => []
  | width + 1, n => pad width (n / 10) ++ [Nat.digitChar (n % 10)]

theorem order_digitChar :
    ∀ a < 10, ∀ b < 10, order (Nat.digitChar a) (Nat.digitChar b) = order a b := by
  decide

/-- Texts of one width are compared as their numbers are, and then by what follows. -/
theorem order_pad {width a b : Nat} (ha : a < 10 ^ width) (hb : b < 10 ^ width) (s t : Str) :
    order (pad width a ++ s) (pad width b ++ t) = (order a b).then (order s t) := by
  induction width generalizing a b s t with
  | zero =>
      have hzero : a = b := by omega
      subst hzero
      rw [order_self]
      rfl
  | succ width ih =>
      have hahigh : a / 10 < 10 ^ width := by omega
      have hbhigh : b / 10 < 10 ^ width := by omega
      have halow : a % 10 < 10 := by omega
      have hblow : b % 10 < 10 := by omega
      have hparts := @order_mixedRadix 10 (a / 10) (b / 10) (a % 10) (b % 10) halow hblow
      rw [Nat.div_add_mod', Nat.div_add_mod'] at hparts
      simp only [pad, List.append_assoc, List.singleton_append]
      rw [ih hahigh hbhigh, order_cons, order_digitChar _ halow _ hblow, hparts,
        Ordering.then_assoc]

/-! ## Dates -/

def isLeapYear (year : Nat) : Bool :=
  decide (year % 4 = 0) && (decide (year % 100 ≠ 0) || decide (year % 400 = 0))

def monthDays (leap : Bool) : Nat → Nat
  | 2 => if leap then 29 else 28
  | 4 | 6 | 9 | 11 => 30
  | _ => 31

theorem monthDays_le (leap : Bool) (month : Nat) : monthDays leap month ≤ 31 := by
  unfold monthDays
  split
  next => cases leap <;> decide
  all_goals decide

def yearDays (year : Nat) : Nat := if isLeapYear year then 366 else 365

/-- A day of the proleptic Gregorian calendar. -/
structure Date where
  year : Nat
  month : Nat
  day : Nat
  month_valid : 1 ≤ month ∧ month ≤ 12
  day_valid : 1 ≤ day ∧ day ≤ monthDays (isLeapYear year) month
deriving DecidableEq

/-- The days of the earlier years: every fourth one is leap, but for the centuries
that 400 does not divide. -/
def daysBeforeYear (year : Nat) : Nat :=
  365 * year + (year + 3) / 4 + (year + 399) / 400 - (year + 99) / 100

/-- The days of the months from January to the one before. -/
def daysBeforeMonth (leap : Bool) : Nat → Nat
  | 0 | 1 => 0
  | month + 2 => daysBeforeMonth leap (month + 1) + monthDays leap (month + 1)

def Date.dayOfYear (date : Date) : Nat :=
  daysBeforeMonth (isLeapYear date.year) date.month + (date.day - 1)

/-- The days since the first day of the year zero. -/
def Date.dayNumber (date : Date) : Nat := daysBeforeYear date.year + date.dayOfYear

/-- A further multiple begins on the numbers that are one. -/
theorem add_period_div {period : Nat} (hperiod : 0 < period) (n : Nat) :
    (n + period) / period =
      (n + (period - 1)) / period + if n % period = 0 then 1 else 0 := by
  have hsucc : n + period = n + (period - 1) + 1 := by omega
  rw [hsucc, Nat.succ_div, ← hsucc]
  simp only [Nat.dvd_iff_mod_eq_zero, Nat.add_mod_right]

theorem daysBeforeYear_succ (year : Nat) :
    daysBeforeYear (year + 1) = daysBeforeYear year + yearDays year := by
  have hfour := add_period_div (show 0 < 4 by decide) year
  have hcentury := add_period_div (show 0 < 100 by decide) year
  have hfourCenturies := add_period_div (show 0 < 400 by decide) year
  -- the years that the rule for a century takes out are among those of the rule for four
  have hle : (year + 99) / 100 ≤ 365 * year := by omega
  have hmod : year % 100 = 0 → year % 4 = 0 := by omega
  have hmod' : year % 400 = 0 → year % 100 = 0 := by omega
  simp only [daysBeforeYear, yearDays, isLeapYear, Bool.and_eq_true, Bool.or_eq_true,
    decide_eq_true_eq, Nat.add_assoc, Nat.reduceAdd]
  rw [hfour, hcentury, hfourCenturies]
  simp only [Nat.add_one_sub_one]
  generalize (year + 3) / 4 = fours
  generalize (year + 99) / 100 = centuries at hle
  generalize (year + 399) / 400 = fourCenturies
  grind

theorem daysBeforeMonth_add_le (leap : Bool) {month : Nat} (h : 1 ≤ month ∧ month ≤ 12) :
    daysBeforeMonth leap month + monthDays leap month ≤ if leap then 366 else 365 := by
  obtain ⟨hlow, hhigh⟩ := h
  interval_cases month <;> cases leap <;> decide

theorem Date.dayOfYear_lt (date : Date) : date.dayOfYear < yearDays date.year := by
  have hday := date.day_valid
  have hmonth := daysBeforeMonth_add_le (isLeapYear date.year) date.month_valid
  unfold Date.dayOfYear yearDays
  omega

theorem Date.order_dayOfYear {a b : Date} (h : a.year = b.year) :
    order a.dayOfYear b.dayOfYear = (order a.month b.month).then (order a.day b.day) := by
  have hda := a.day_valid
  have hdb := b.day_valid
  have hma := a.month_valid
  have hmb := b.month_valid
  -- months and days are counted from one
  have hmonths : order (a.month - 1) (b.month - 1) = order a.month b.month := by
    apply order_eq_order <;> omega
  have hdays : order (a.day - 1) (b.day - 1) = order a.day b.day := by
    apply order_eq_order <;> omega
  have hpreda : a.month - 1 + 1 = a.month := by omega
  have hpredb : b.month - 1 + 1 = b.month := by omega
  have hblocks := @order_blocks (fun n => daysBeforeMonth (isLeapYear b.year) (n + 1))
    (fun n => monthDays (isLeapYear b.year) (n + 1)) (fun n => le_refl _) (a.month - 1)
    (b.month - 1) (a.day - 1) (b.day - 1)
  rw [hpreda, hpredb, hmonths, hdays] at hblocks
  unfold Date.dayOfYear
  rw [h] at hda ⊢
  apply hblocks <;> omega

/-- Days are numbered in the order of their dates. -/
theorem Date.order_dayNumber (a b : Date) :
    order a.dayNumber b.dayNumber =
      (order a.year b.year).then ((order a.month b.month).then (order a.day b.day)) := by
  have hstart : ∀ n, daysBeforeYear n + yearDays n ≤ daysBeforeYear (n + 1) :=
    fun n => (daysBeforeYear_succ n).ge
  unfold Date.dayNumber
  rw [order_blocks hstart a.dayOfYear_lt b.dayOfYear_lt]
  apply then_congr
  intro hyear
  exact Date.order_dayOfYear (order_eq_eq_iff.mp hyear)

/-! ## Fractions -/

theorem digitValue_lt {c : Char} (h : c.isDigit = true) : digitValue c < 10 := by
  have hc := digit_toNat h
  show c.toNat - 48 < 10
  omega

theorem digit_lt {c d : Char} (h : c.isDigit = true) (hd : 57 < d.toNat) : c < d := by
  have hc := digit_toNat h
  show c.toNat < d.toNat
  omega

theorem order_digitValue {c d : Char} (hc : c.isDigit = true) (hd : d.isDigit = true) :
    order (digitValue c) (digitValue d) = order c d := by
  have hcn := digit_toNat hc
  have hdn := digit_toNat hd
  apply order_eq_order
  · show c.toNat - 48 < d.toNat - 48 ↔ c.toNat < d.toNat
    omega
  · show d.toNat - 48 < c.toNat - 48 ↔ d.toNat < c.toNat
    omega

/-- The value of the digits behind the point, in units of the last of the places. -/
def placesValue : Nat → Str → Nat
  | 0, _ | _, [] => 0
  | places + 1, c :: digits => digitValue c * 10 ^ places + placesValue places digits

/-- The fraction of a second with its point, and the mark of UTC. -/
def fractionText (digits : Str) : Str :=
  if digits = [] then ['Z'] else '.' :: digits ++ ['Z']

theorem fractionText_injective {p q : Str} (h : fractionText p = fractionText q) : p = q := by
  unfold fractionText at h
  split at h
  next hp =>
    split at h
    next hq => rw [hp, hq]
    next => exact absurd (List.cons.inj h).1 (by decide)
  next =>
    split at h
    next => exact absurd (List.cons.inj h).1 (by decide)
    next => exact List.append_cancel_right (List.cons.inj h).2

theorem placesValue_lt (places : Nat) {digits : Str} (h : ∀ c ∈ digits, c.isDigit = true) :
    placesValue places digits < 10 ^ places := by
  induction places generalizing digits with
  | zero => exact Nat.one_pos
  | succ places ih =>
      cases digits with
      | nil => exact Nat.pow_pos (by decide)
      | cons c digits =>
          have hc := digitValue_lt (h c List.mem_cons_self)
          have hrest := ih fun d hd => h d (List.mem_cons_of_mem c hd)
          have hmul : digitValue c * 10 ^ places ≤ 9 * 10 ^ places :=
            Nat.mul_le_mul_right _ (by omega)
          rw [placesValue, Nat.pow_succ]
          omega

/-- The point and the mark of UTC say nothing that the digits do not. -/
theorem order_fractionText {p q : Str} (hp : ∀ c ∈ p, c.isDigit = true)
    (hq : ∀ c ∈ q, c.isDigit = true) :
    order (fractionText p) (fractionText q) = order (p ++ ['Z']) (q ++ ['Z']) := by
  have hmark : ∀ c : Char, c.isDigit = true → order 'Z' c = .gt ∧ order c 'Z' = .lt := by
    intro c hc
    have hlt : c < 'Z' := digit_lt hc (by decide)
    exact ⟨order_of_gt hlt, order_of_lt hlt⟩
  have hpoint : order 'Z' '.' = .gt ∧ order '.' 'Z' = .lt := by decide
  unfold fractionText
  cases p with
  | nil =>
      cases q with
      | nil => rfl
      | cons d q =>
          have hd := hmark d (hq d List.mem_cons_self)
          simp [order_cons, hd.1, hpoint.1]
  | cons c p =>
      cases q with
      | nil =>
          have hc := hmark c (hp c List.mem_cons_self)
          simp [order_cons, hc.2, hpoint.2]
      | cons d q => simp

/-- Digits are compared as fractions are, unless one fraction goes on where the other
one ends: then its text is the smaller one, whatever its value. -/
theorem order_digits_iff {places : Nat} {p q : Str} (hp : ∀ c ∈ p, c.isDigit = true)
    (hq : ∀ c ∈ q, c.isDigit = true) (hpl : p.length ≤ places) (hql : q.length ≤ places) :
    order (p ++ ['Z']) (q ++ ['Z']) = order (placesValue places p) (placesValue places q) ↔
      p = q ∨ ¬ p <+: q ∧ ¬ q <+: p := by
  induction places generalizing p q with
  | zero =>
      have hpnil := List.length_eq_zero_iff.mp (Nat.le_zero.mp hpl)
      have hqnil := List.length_eq_zero_iff.mp (Nat.le_zero.mp hql)
      subst hpnil hqnil
      simp
  | succ places ih =>
      cases p with
      | nil =>
          cases q with
          | nil => simp
          | cons d q =>
              have hlt : d < 'Z' := digit_lt (hq d List.mem_cons_self) (by decide)
              have htext : order ([] ++ ['Z']) (d :: q ++ ['Z']) = .gt := by
                show order ('Z' :: []) (d :: (q ++ ['Z'])) = .gt
                rw [order_cons, order_of_gt hlt]
                rfl
              have hvalue : ¬ placesValue (places + 1) (d :: q) < placesValue (places + 1) [] :=
                Nat.not_lt_zero _
              rw [htext, eq_comm, order_eq_gt_iff]
              simp [hvalue]
      | cons c p =>
          cases q with
          | nil =>
              have hlt : c < 'Z' := digit_lt (hp c List.mem_cons_self) (by decide)
              have htext : order (c :: p ++ ['Z']) ([] ++ ['Z']) = .lt := by
                show order (c :: (p ++ ['Z'])) ('Z' :: []) = .lt
                rw [order_cons, order_of_lt hlt]
                rfl
              have hvalue : ¬ placesValue (places + 1) (c :: p) < placesValue (places + 1) [] :=
                Nat.not_lt_zero _
              rw [htext, eq_comm, order_eq_lt_iff]
              simp [hvalue]
          | cons d q =>
              have hprest : ∀ e ∈ p, e.isDigit = true :=
                fun e he => hp e (List.mem_cons_of_mem c he)
              have hqrest : ∀ e ∈ q, e.isDigit = true :=
                fun e he => hq e (List.mem_cons_of_mem d he)
              have hrest := ih hprest hqrest (Nat.le_of_succ_le_succ hpl)
                (Nat.le_of_succ_le_succ hql)
              have hhead := order_digitValue (hp c List.mem_cons_self) (hq d List.mem_cons_self)
              simp only [placesValue, List.cons_append, order_cons]
              rw [order_mixedRadix (placesValue_lt places hprest) (placesValue_lt places hqrest),
                hhead]
              by_cases hcd : c = d
              · subst hcd
                simp [hrest]
              · have hne : order c d ≠ .eq := fun h => hcd (order_eq_eq_iff.mp h)
                have hthen := @then_congr (order c d) (order (p ++ ['Z']) (q ++ ['Z']))
                  (order (placesValue places p) (placesValue places q)) fun h => absurd h hne
                simp [hthen, hcd, Ne.symm hcd]

/-! ## Timestamps -/

/-- An instant in UTC, written with at most nanoseconds. -/
structure Timestamp where
  date : Date
  hour : Nat
  minute : Nat
  second : Nat
  fraction : Str
  year_lt : date.year < 10000
  hour_lt : hour < 24
  minute_lt : minute < 60
  second_lt : second < 60
  fraction_digits : ∀ c ∈ fraction, c.isDigit = true
  fraction_length : fraction.length ≤ 9

namespace Timestamp

/-- The RFC 3339 text, in the zone `Z`. -/
def text (t : Timestamp) : Str :=
  pad 4 t.date.year ++ '-' :: (pad 2 t.date.month ++ '-' :: (pad 2 t.date.day ++
    'T' :: (pad 2 t.hour ++ ':' :: (pad 2 t.minute ++ ':' :: (pad 2 t.second ++
      fractionText t.fraction)))))

/-- The whole seconds since the first midnight of the year zero. -/
def seconds (t : Timestamp) : Nat :=
  ((t.date.dayNumber * 24 + t.hour) * 60 + t.minute) * 60 + t.second

/-- The nanoseconds since the first midnight of the year zero. -/
def instant (t : Timestamp) : Nat := t.seconds * 10 ^ 9 + placesValue 9 t.fraction

theorem order_seconds (a b : Timestamp) :
    order a.seconds b.seconds =
      (order a.date.year b.date.year).then ((order a.date.month b.date.month).then
        ((order a.date.day b.date.day).then ((order a.hour b.hour).then
          ((order a.minute b.minute).then (order a.second b.second))))) := by
  unfold seconds
  rw [order_mixedRadix a.second_lt b.second_lt, order_mixedRadix a.minute_lt b.minute_lt,
    order_mixedRadix a.hour_lt b.hour_lt, Date.order_dayNumber]
  simp only [Ordering.then_assoc]

theorem order_instant (a b : Timestamp) :
    order a.instant b.instant = (order a.seconds b.seconds).then
      (order (placesValue 9 a.fraction) (placesValue 9 b.fraction)) := by
  unfold instant
  exact order_mixedRadix (placesValue_lt 9 a.fraction_digits) (placesValue_lt 9 b.fraction_digits)

/-- Texts are compared by their seconds, then by what they show of the fractions. -/
theorem order_text (a b : Timestamp) :
    order a.text b.text = (order a.seconds b.seconds).then
      (order (fractionText a.fraction) (fractionText b.fraction)) := by
  have hdays : ∀ t : Timestamp, t.date.month < 10 ^ 2 ∧ t.date.day < 10 ^ 2 ∧ t.hour < 10 ^ 2 ∧
      t.minute < 10 ^ 2 ∧ t.second < 10 ^ 2 := by
    intro t
    have hmonth := t.date.month_valid
    have hday := t.date.day_valid
    have hlength := monthDays_le (isLeapYear t.date.year) t.date.month
    have hhour := t.hour_lt
    have hminute := t.minute_lt
    have hsecond := t.second_lt
    omega
  obtain ⟨hma, hda, hha, hia, hsa⟩ := hdays a
  obtain ⟨hmb, hdb, hhb, hib, hsb⟩ := hdays b
  unfold text
  rw [order_pad a.year_lt b.year_lt, order_cons_self, order_pad hma hmb, order_cons_self,
    order_pad hda hdb, order_cons_self, order_pad hha hhb, order_cons_self, order_pad hia hib,
    order_cons_self, order_pad hsa hsb, order_seconds]
  simp only [Ordering.then_assoc]

/-- In one second, the fraction of one timestamp goes on where that of the other ends. -/
def Extends (a b : Timestamp) : Prop :=
  a.seconds = b.seconds ∧ a.fraction ≠ b.fraction ∧
    (a.fraction <+: b.fraction ∨ b.fraction <+: a.fraction)

instance (a b : Timestamp) : Decidable (a.Extends b) := inferInstanceAs (Decidable (_ ∧ _ ∧ _))

/-- Texts are in the order of their instants, unless one fraction extends the other. -/
theorem order_text_iff (a b : Timestamp) :
    order a.text b.text = order a.instant b.instant ↔ ¬ a.Extends b := by
  have hdigits := @order_digits_iff 9 a.fraction b.fraction a.fraction_digits b.fraction_digits
    a.fraction_length b.fraction_length
  rw [order_text, order_instant, order_fractionText a.fraction_digits b.fraction_digits]
  unfold Extends
  by_cases hsame : a.seconds = b.seconds
  · have hthen : ∀ o : Ordering, (order a.seconds b.seconds).then o = o := by
      intro o
      rw [order_eq_eq_iff.mpr hsame]
      rfl
    rw [hthen, hthen, hdigits]
    simp only [hsame, true_and]
    tauto
  · have hne : order a.seconds b.seconds ≠ .eq := fun h => hsame (order_eq_eq_iff.mp h)
    simp only [hsame, false_and, not_false_eq_true, iff_true]
    exact then_congr fun h => absurd h hne

theorem Extends.symm {a b : Timestamp} (h : a.Extends b) : b.Extends a :=
  ⟨h.1.symm, h.2.1.symm, h.2.2.symm⟩

/-- A later instant whose fraction goes on has the smaller text. -/
theorem Extends.text_lt {a b : Timestamp} (h : a.Extends b) (hlt : a.instant < b.instant) :
    b.text < a.text := by
  have hdiffers : order a.text b.text ≠ order a.instant b.instant :=
    fun heq => (order_text_iff a b).mp heq h
  rw [order_of_lt hlt] at hdiffers
  apply order_eq_gt_iff.mp
  cases horder : order a.text b.text with
  | lt => exact absurd horder hdiffers
  | gt => rfl
  | eq =>
      have hfraction : order (fractionText a.fraction) (fractionText b.fraction) = .eq := by
        rw [order_text, order_eq_eq_iff.mpr h.1] at horder
        exact horder
      exact absurd (fractionText_injective (order_eq_eq_iff.mp hfraction)) h.2.1

end Timestamp

end AbixioUi.Foundation
