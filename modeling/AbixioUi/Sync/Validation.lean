import AbixioUi.Foundation.Numerals
import AbixioUi.Sync.Config
import AbixioUi.Sync.Filter
import AbixioUi.Sync.Planner
import AbixioUi.Sync.RunPlan

/-! # What validation leaves unchecked

Planning starts once the configuration is validated. The filter texts and the
transfer worker count are parsed later, where a rejected filter counts as no filter
and a rejected count as the default, and the pair of endpoints is looked at only
when the run plan is prepared. The grammars of the texts say which configurations
pass through all of it.
-/

namespace AbixioUi

open Foundation

/-! ## Sizes -/

/-- The factor of a size unit, in either case. -/
def sizeUnit (c : Char) : Option Nat :=
  match c.toLower with
  | 't' => some (1024 * 1024 * 1024 * 1024)
  | 'g' => some (1024 * 1024 * 1024)
  | 'm' => some (1024 * 1024)
  | 'k' => some 1024
  | 'b' => some 1
  | _ => none

/-- A numeral, or one before a unit. -/
def IsSize (text : Str) (size : Nat) : Prop :=
  IsNumeral text size ∨
    ∃ number unit factor n, text = number ++ [unit] ∧ sizeUnit unit = some factor ∧
      IsNumeral (trim number) n ∧ size = n * factor

/-- The number in front of the unit, scaled. -/
def scaledSize (number : Str) (factor : Nat) : Option Nat :=
  match parseUnsigned 64 (trim number) with
  | none => none
  | some num => if num * factor < 2 ^ 64 then some (num * factor) else none

theorem sizeUnit_pos {c : Char} {factor : Nat} (h : sizeUnit c = some factor) : 0 < factor := by
  unfold sizeUnit at h
  split at h <;> cases h <;> decide

/-- No unit is a digit. -/
theorem sizeUnit_of_digit {c : Char} (h : c.isDigit = true) : sizeUnit c = none := by
  have hlower : c.toLower = c := by
    have hrange := digit_toNat h
    rcases toLower_cases c with heq | ⟨hlow, -, -⟩
    · exact heq
    · omega
  unfold sizeUnit
  rw [hlower]
  split <;> first | rfl | (revert h; decide)

theorem scaledSize_eq_some {number : Str} {factor size : Nat} (hfactor : 0 < factor) :
    scaledSize number factor = some size ↔
      ∃ n, IsNumeral (trim number) n ∧ size = n * factor ∧ size < 2 ^ 64 := by
  unfold scaledSize
  constructor
  · intro h
    split at h
    · cases h
    · next n hparse =>
      split at h
      · next hlt =>
        cases h
        exact ⟨n, (parseUnsigned_eq_some.mp hparse).1, rfl, hlt⟩
      · cases h
  · rintro ⟨n, hnumeral, rfl, hlt⟩
    have hn : n < 2 ^ 64 := lt_of_le_of_lt (Nat.le_mul_of_pos_right n hfactor) hlt
    rw [parseUnsigned_eq_some.mpr ⟨hnumeral, hn⟩]
    exact if_pos hlt

theorem parseSizeFilter_concat {text front : Str} {c : Char} (h : trim text = front ++ [c]) :
    parseSizeFilter text = match sizeUnit c with
      | some factor => scaledSize front factor
      | none => scaledSize (front ++ [c]) 1 := by
  have hne : front ++ [c] ≠ [] := by simp
  have hends : ∀ unit, endsWith unit (toAsciiLowercase (front ++ [c])) =
      decide (c.toLower = unit) := by
    intro unit
    simp [endsWith, toAsciiLowercase, beq_eq_decide]
  have hnone : c.toLower ≠ 't' → c.toLower ≠ 'g' → c.toLower ≠ 'm' → c.toLower ≠ 'k' →
      c.toLower ≠ 'b' → sizeUnit c = none := by
    intro ht hg hm hk hb
    unfold sizeUnit
    split <;> first | contradiction | rfl
  unfold parseSizeFilter
  simp only [h, hends, if_neg hne, List.dropLast_concat, decide_eq_true_eq]
  split_ifs with ht hg hm hk hb
  · rw [sizeUnit, ht]
    rfl
  · rw [sizeUnit, hg]
    rfl
  · rw [sizeUnit, hm]
    rfl
  · rw [sizeUnit, hk]
    rfl
  · rw [sizeUnit, hb]
    rfl
  · rw [hnone ht hg hm hk hb]
    rfl

/-- A size filter is read exactly when its text is a size that fits. -/
theorem parseSizeFilter_eq_some {text : Str} {size : Nat} :
    parseSizeFilter text = some size ↔ IsSize (trim text) size ∧ size < 2 ^ 64 := by
  rcases List.eq_nil_or_concat (trim text) with hnil | ⟨front, c, hconcat⟩
  · have hsize : ¬ IsSize [] size := by
      rintro (⟨digits, hdigits, ⟨hne, -⟩, -⟩ | ⟨number, unit, factor, n, htext, -⟩)
      · rcases hdigits with rfl | hplus
        · exact hne rfl
        · cases hplus
      · simp at htext
    simp [parseSizeFilter, hnil, hsize]
  · rw [List.concat_eq_append] at hconcat
    rw [parseSizeFilter_concat hconcat, hconcat]
    cases hunit : sizeUnit c with
    | none =>
        have hself : trim (front ++ [c]) = front ++ [c] := by rw [← hconcat, trim_trim]
        simp only [scaledSize_eq_some Nat.one_pos, hself, Nat.mul_one]
        constructor
        · rintro ⟨n, hnumeral, rfl, hlt⟩
          exact ⟨.inl hnumeral, hlt⟩
        · rintro ⟨hnumeral | ⟨number, unit, factor, n, htext, hfactor, -⟩, hlt⟩
          · exact ⟨size, hnumeral, rfl, hlt⟩
          · obtain ⟨-, hc⟩ := List.append_inj' htext rfl
            rw [List.singleton_inj] at hc
            rw [← hc, hunit] at hfactor
            cases hfactor
    | some factor =>
        simp only [scaledSize_eq_some (sizeUnit_pos hunit)]
        constructor
        · rintro ⟨n, hnumeral, rfl, hlt⟩
          exact ⟨.inr ⟨front, c, factor, n, rfl, hunit, hnumeral, rfl⟩, hlt⟩
        · rintro ⟨hnumeral | ⟨number, unit, factor', n, htext, hfactor, hnumber, hsize⟩, hlt⟩
          · obtain ⟨last, hlast, hdigit⟩ := hnumeral.getLast?
            obtain rfl : c = last := by simpa using hlast
            rw [sizeUnit_of_digit hdigit] at hunit
            cases hunit
          · obtain ⟨rfl, hc⟩ := List.append_inj' htext rfl
            rw [List.singleton_inj] at hc
            subst hc
            obtain rfl : factor = factor' := by
              rw [hunit] at hfactor
              exact Option.some.inj hfactor
            exact ⟨n, hnumber, hsize, hlt⟩

/-! ## Ages -/

/-- One or more numbers, each before its unit, and their seconds in all. -/
inductive IsAge : Str → Int → Prop
  | last {digits : Str} {unit : Char} {factor : Int} :
      IsDigits digits → ageUnitSeconds unit = some factor →
      IsAge (digits ++ [unit]) (digitsValue digits * factor)
  | segment {digits rest : Str} {unit : Char} {factor seconds : Int} :
      IsDigits digits → ageUnitSeconds unit = some factor → IsAge rest seconds →
      IsAge (digits ++ unit :: rest) (digitsValue digits * factor + seconds)

theorem ageUnitSeconds_pos {c : Char} {factor : Int} (h : ageUnitSeconds c = some factor) :
    0 < factor := by
  unfold ageUnitSeconds at h
  split at h <;> cases h <;> decide

theorem ageUnitSeconds_not_digit {c : Char} {factor : Int}
    (h : ageUnitSeconds c = some factor) : c.isDigit = false := by
  unfold ageUnitSeconds at h
  split at h <;> first | rfl | cases h

theorem IsAge.nonneg {text : Str} {seconds : Int} (h : IsAge text seconds) : 0 ≤ seconds := by
  induction h with
  | last _ hunit => exact Int.mul_nonneg (Int.natCast_nonneg _) (ageUnitSeconds_pos hunit).le
  | segment _ hunit _ ih =>
      refine Int.add_nonneg ?_ ih
      exact Int.mul_nonneg (Int.natCast_nonneg _) (ageUnitSeconds_pos hunit).le

/-- An age splits at its first character that is not a digit. -/
theorem isAge_split {digits rest : Str} {unit : Char} {seconds : Int}
    (hdigits : ∀ c ∈ digits, c.isDigit = true) (hunit : unit.isDigit = false) :
    IsAge (digits ++ unit :: rest) seconds ↔
      digits ≠ [] ∧ ∃ factor, ageUnitSeconds unit = some factor ∧
        ((rest = [] ∧ seconds = digitsValue digits * factor) ∨
          ∃ more, IsAge rest more ∧ seconds = digitsValue digits * factor + more) := by
  constructor
  · generalize htext : digits ++ unit :: rest = text
    intro h
    cases h with
    | @last digits' unit' factor hd hu =>
        obtain ⟨rfl, rfl, rfl⟩ :=
          digits_append_inj hdigits hd.2 hunit (ageUnitSeconds_not_digit hu) htext
        exact ⟨hd.1, factor, hu, .inl ⟨rfl, rfl⟩⟩
    | @segment digits' rest' unit' factor more hd hu hrest =>
        obtain ⟨rfl, rfl, rfl⟩ :=
          digits_append_inj hdigits hd.2 hunit (ageUnitSeconds_not_digit hu) htext
        exact ⟨hd.1, factor, hu, .inr ⟨more, hrest, rfl⟩⟩
  · rintro ⟨hne, factor, hfactor, ⟨rfl, rfl⟩ | ⟨more, hrest, rfl⟩⟩
    · exact .last ⟨hne, hdigits⟩ hfactor
    · exact .segment ⟨hne, hdigits⟩ hfactor hrest

/-- An age has a unit. -/
theorem not_isAge_digits {digits : Str} {seconds : Int}
    (hdigits : ∀ c ∈ digits, c.isDigit = true) : ¬ IsAge digits seconds := by
  intro h
  cases h with
  | last _ hunit | segment _ hunit _ =>
      have hdigit := hdigits _ (List.mem_append_right _ List.mem_cons_self)
      rw [ageUnitSeconds_not_digit hunit] at hdigit
      cases hdigit

theorem fitsI64_sum_iff {total number : Int} (htotal : 0 ≤ total) (hnumber : 0 ≤ number) :
    (fitsI64 number = true ∧ fitsI64 (total + number) = true) ↔ total + number < 2 ^ 63 := by
  simp only [fitsI64, decide_eq_true_eq]
  omega

/-- The loop at a unit: without a number that can be read the text is rejected, and
otherwise the seconds so far have to fit. -/
theorem parseAgeSegments_at_unit {ch : Char} {rest numBuf : Str} {total factor : Int}
    {found : Bool} (hdigits : ∀ c ∈ numBuf, c.isDigit = true) (htotal : 0 ≤ total)
    (hunit : ageUnitSeconds ch = some factor) :
    parseAgeSegments (ch :: rest) numBuf total found =
      if numBuf ≠ [] ∧ digitsValue numBuf < 2 ^ 63 then
        if total + digitsValue numBuf * factor < 2 ^ 63 then
          parseAgeSegments rest [] (total + digitsValue numBuf * factor) true
        else none
      else some none := by
  have hch : ¬ ch.isDigit = true := by
    rw [ageUnitSeconds_not_digit hunit]
    exact Bool.false_ne_true
  have hnonneg : (0 : Int) ≤ digitsValue numBuf * factor :=
    Int.mul_nonneg (Int.natCast_nonneg _) (ageUnitSeconds_pos hunit).le
  rw [parseAgeSegments, if_neg hch, hunit]
  by_cases hnumBuf : numBuf = []
  · subst hnumBuf
    simp [parseUnsigned, parseDigits]
  rw [parseUnsigned_of_digits 63 ⟨hnumBuf, hdigits⟩]
  by_cases hvalue : digitsValue numBuf < 2 ^ 63
  · rw [if_pos hvalue, if_pos ⟨hnumBuf, hvalue⟩]
    simp only [fitsI64_sum_iff htotal hnonneg]
  · rw [if_neg hvalue, if_neg fun h => hvalue h.2]

theorem parseAgeSegments_unit {ch : Char} {rest numBuf : Str} {total seconds factor : Int}
    {found : Bool} (hdigits : ∀ c ∈ numBuf, c.isDigit = true) (htotal : 0 ≤ total)
    (hunit : ageUnitSeconds ch = some factor) :
    parseAgeSegments (ch :: rest) numBuf total found = some (some seconds) ↔
      numBuf ≠ [] ∧ total + digitsValue numBuf * factor < 2 ^ 63 ∧
        parseAgeSegments rest [] (total + digitsValue numBuf * factor) true =
          some (some seconds) := by
  have hvalue : (digitsValue numBuf : Int) * 1 ≤ digitsValue numBuf * factor :=
    Int.mul_le_mul_of_nonneg_left (ageUnitSeconds_pos hunit) (Int.natCast_nonneg _)
  rw [parseAgeSegments_at_unit hdigits htotal hunit]
  by_cases hsum : total + digitsValue numBuf * factor < 2 ^ 63
  · rw [if_pos hsum]
    by_cases hnumBuf : numBuf = []
    · simp [hnumBuf]
    · rw [if_pos ⟨hnumBuf, by omega⟩, and_iff_right hnumBuf, and_iff_right hsum]
  · rw [if_neg hsum]
    refine iff_of_false ?_ fun h => hsum h.2.1
    split <;> exact nofun

theorem parseAgeSegments_no_unit {ch : Char} {rest numBuf : Str} {total seconds : Int}
    {found : Bool} (hch : ch.isDigit = false) (hunit : ageUnitSeconds ch = none) :
    parseAgeSegments (ch :: rest) numBuf total found ≠ some (some seconds) := by
  rw [parseAgeSegments, hch, hunit]
  simp only [Bool.false_eq_true, if_false]
  split <;> simp_all

/-- The loop from a state: either it was done, or the buffered digits and the rest
are an age, whose seconds it adds. -/
theorem parseAgeSegments_eq_some {rest numBuf : Str} {total seconds : Int} {found : Bool}
    (hdigits : ∀ c ∈ numBuf, c.isDigit = true) (htotal : 0 ≤ total) (hfits : total < 2 ^ 63) :
    parseAgeSegments rest numBuf total found = some (some seconds) ↔
      (rest = [] ∧ numBuf = [] ∧ found = true ∧ seconds = total) ∨
        ∃ more, IsAge (numBuf ++ rest) more ∧ seconds = total + more ∧ seconds < 2 ^ 63 := by
  induction rest generalizing numBuf total found with
  | nil =>
      have hnone : ¬ ∃ more, IsAge (numBuf ++ []) more ∧ seconds = total + more ∧
          seconds < 2 ^ 63 := by
        rintro ⟨more, hage, -⟩
        rw [List.append_nil] at hage
        exact not_isAge_digits hdigits hage
      rw [parseAgeSegments, or_iff_left hnone]
      by_cases hdone : found = true ∧ numBuf = []
      · simp [hdone, eq_comm]
      · rw [if_neg hdone]
        constructor
        · intro h
          cases h
        · rintro ⟨-, hnumBuf, hfound, -⟩
          exact absurd ⟨hfound, hnumBuf⟩ hdone
  | cons ch rest ih =>
      by_cases hch : ch.isDigit = true
      · have hmore : ∀ c ∈ numBuf ++ [ch], c.isDigit = true := by
          intro c hc
          rcases List.mem_append.mp hc with hc | hc
          · exact hdigits c hc
          · rwa [List.mem_singleton.mp hc]
        rw [parseAgeSegments, if_pos hch, ih hmore htotal hfits]
        simp
      · rw [Bool.not_eq_true] at hch
        have hleft : ¬ (ch :: rest = [] ∧ numBuf = [] ∧ found = true ∧ seconds = total) :=
          fun h => List.cons_ne_nil _ _ h.1
        rw [or_iff_right hleft]
        simp only [isAge_split hdigits hch]
        cases hunit : ageUnitSeconds ch with
        | none => simp [parseAgeSegments_no_unit hch hunit]
        | some factor =>
            have hfirst : (0 : Int) ≤ digitsValue numBuf * factor :=
              Int.mul_nonneg (Int.natCast_nonneg _) (ageUnitSeconds_pos hunit).le
            rw [parseAgeSegments_unit hdigits htotal hunit]
            constructor
            · rintro ⟨hnumBuf, hsum, h⟩
              rcases (ih (by simp) (by omega) hsum).mp h with
                ⟨hrest, -, -, rfl⟩ | ⟨more, hage, rfl, hlt⟩
              · exact ⟨_, ⟨hnumBuf, factor, rfl, .inl ⟨hrest, rfl⟩⟩, rfl, hsum⟩
              · exact ⟨_, ⟨hnumBuf, factor, rfl, .inr ⟨more, hage, rfl⟩⟩, by omega, hlt⟩
            · rintro ⟨_, ⟨hnumBuf, factor', hfactor, hseconds⟩, rfl, hlt⟩
              obtain rfl : factor = factor' := Option.some.inj hfactor
              rcases hseconds with ⟨hrest, rfl⟩ | ⟨more, hage, rfl⟩
              · exact ⟨hnumBuf, hlt, (ih (by simp) (by omega) hlt).mpr
                  (.inl ⟨hrest, rfl, rfl, rfl⟩)⟩
              · have hnonneg := hage.nonneg
                have hsum : total + digitsValue numBuf * factor < 2 ^ 63 := by omega
                exact ⟨hnumBuf, hsum, (ih (by simp) (by omega) hsum).mpr
                  (.inr ⟨more, hage, by omega, hlt⟩)⟩

/-- The cutoff of a relative age is a date that can be represented. -/
def cutoffFits (now seconds : Int) : Prop :=
  minInstant ≤ now - seconds * 10 ^ 9 ∧ now - seconds * 10 ^ 9 ≤ maxInstant

/-- An age filter is read exactly when its text is an instant, or an age whose
seconds fit and whose cutoff is a date. -/
theorem parseAgeFilter_isRead {time : TimeCodec} {now : Int} {text : Str} (h : trim text ≠ []) :
    (∃ cutoff, parseAgeFilter time now text = some (some cutoff)) ↔
      (∃ instant, time.parse (trim text) = some instant) ∨
        ∃ seconds, IsAge (trim text) seconds ∧ seconds < 2 ^ 63 ∧ cutoffFits now seconds := by
  unfold parseAgeFilter
  simp only [if_neg h]
  cases hparse : time.parse (trim text) with
  | some instant => simp
  | none =>
      have hloop := fun seconds => @parseAgeSegments_eq_some (trim text) [] 0 seconds false
        (by simp) (le_refl 0) (by decide)
      simp only [List.nil_append, Bool.false_eq_true, false_and, and_false, false_or,
        Int.zero_add] at hloop
      simp only [reduceCtorEq, exists_false, false_or]
      constructor
      · rintro ⟨cutoff, hcutoff⟩
        split at hcutoff
        · cases hcutoff
        · cases hcutoff
        · next seconds hseconds =>
          obtain ⟨more, hage, rfl, hlt⟩ := (hloop seconds).mp hseconds
          split at hcutoff
          · next hfits => exact ⟨seconds, hage, hlt, hfits⟩
          · cases hcutoff
      · rintro ⟨seconds, hage, hlt, hfits⟩
        rw [(hloop seconds).mpr ⟨seconds, hage, rfl, hlt⟩]
        exact ⟨_, if_pos hfits⟩

/-! ## Worker counts -/

theorem parsePositive_isOk {label : String} {text : Str} :
    (∃ value, parsePositive label text = .ok value) ↔
      ∃ n, IsNumeral (trim text) n ∧ 0 < n ∧ n < 2 ^ 64 := by
  unfold parsePositive
  constructor
  · rintro ⟨value, hvalue⟩
    split at hvalue
    · cases hvalue
    · next n hparse =>
      obtain ⟨hnumeral, hlt⟩ := parseUnsigned_eq_some.mp hparse
      split at hvalue
      · cases hvalue
      · next hzero => exact ⟨n, hnumeral, Nat.pos_of_ne_zero hzero, hlt⟩
  · rintro ⟨n, hnumeral, hpos, hlt⟩
    rw [parseUnsigned_eq_some.mpr ⟨hnumeral, hlt⟩]
    exact ⟨n, if_neg (Nat.ne_of_gt hpos)⟩

theorem validateSyncConfig_deleteWorkers {sync : SyncState} (h : validateSyncConfig sync = .ok ()) :
    ∃ workers, parseDeleteWorkers sync.deleteGuardrails.deleteWorkersText = .ok workers := by
  unfold validateSyncConfig at h
  simp only [bind, Except.bind, pure, Except.pure, throw, throwThe, MonadExceptOf.throw] at h
  split_ifs at h
  cases hlimit : parsePlannerLimit sync.tuning.maxPlannerItemsText with
  | error e => simp [hlimit] at h
  | ok limit =>
      cases hworkers : parseDeleteWorkers sync.deleteGuardrails.deleteWorkersText with
      | error e => simp [hlimit, hworkers] at h
      | ok workers => exact ⟨workers, rfl⟩

/-! ## Run plans -/

section Endpoints

variable {platform : Platform} {sync : SyncState}

theorem buildTransferEndpoint_source_s3 (h : sync.sourceKind = .s3) (path : Str) :
    buildTransferEndpoint platform sync true path =
      .ok (.s3 sync.sourceConnectionId sync.sourceBucket (joinS3Key sync.sourcePrefix path)) := by
  simp [buildTransferEndpoint, h]

theorem buildTransferEndpoint_destination_s3 (h : sync.destinationKind = .s3) (path : Str) :
    buildTransferEndpoint platform sync false path =
      .ok (.s3 sync.destinationConnectionId sync.destinationBucket
        (joinS3Key sync.destinationPrefix path)) := by
  simp [buildTransferEndpoint, h]

theorem buildTransferEndpoint_source_local (h : sync.sourceKind = .local)
    (hroot : sync.sourceLocalPath ≠ none) (path : Str) :
    ∃ file, buildTransferEndpoint platform sync true path = .ok (.local file) := by
  obtain ⟨root, hroot⟩ := Option.ne_none_iff_exists'.mp hroot
  exact ⟨_, by simp [buildTransferEndpoint, h, hroot]; rfl⟩

theorem buildTransferEndpoint_destination_local (h : sync.destinationKind = .local)
    (hroot : sync.destinationLocalPath ≠ none) (path : Str) :
    ∃ file, buildTransferEndpoint platform sync false path = .ok (.local file) := by
  obtain ⟨root, hroot⟩ := Option.ne_none_iff_exists'.mp hroot
  exact ⟨_, by simp [buildTransferEndpoint, h, hroot]; rfl⟩

/-- A validated configuration transfers every path unless both sides are local. -/
theorem transferRunItem_isOk_iff (h : validateSyncConfig sync = .ok ()) (planItem : SyncPlanItem) :
    (∃ item, transferRunItem platform sync planItem = .ok item) ↔
      sync.sourceKind = .s3 ∨ sync.destinationKind = .s3 := by
  obtain ⟨hsource, hdestination, -⟩ := validateSyncConfig_ok h
  have path := planItem.relativePath
  unfold transferRunItem
  cases hs : sync.sourceKind with
  | s3 =>
      rw [buildTransferEndpoint_source_s3 hs]
      cases hd : sync.destinationKind with
      | s3 =>
          rw [buildTransferEndpoint_destination_s3 hd]
          by_cases hsame : sync.sourceConnectionId = sync.destinationConnectionId <;>
            simp [determineExecutionStrategy, hsame, bind, Except.bind, pure, Except.pure]
      | «local» =>
          obtain ⟨file, hfile⟩ := @buildTransferEndpoint_destination_local platform sync hd
            (hdestination hd) planItem.relativePath
          simp [hfile, determineExecutionStrategy, bind, Except.bind, pure, Except.pure]
  | «local» =>
      obtain ⟨file, hfile⟩ := @buildTransferEndpoint_source_local platform sync hs (hsource hs)
        planItem.relativePath
      cases hd : sync.destinationKind with
      | s3 =>
          rw [hfile, buildTransferEndpoint_destination_s3 hd]
          simp [determineExecutionStrategy, bind, Except.bind, pure, Except.pure]
      | «local» =>
          obtain ⟨target, htarget⟩ := @buildTransferEndpoint_destination_local platform sync hd
            (hdestination hd) planItem.relativePath
          simp [hfile, htarget, determineExecutionStrategy, bind, Except.bind]

theorem deleteRunItem_isOk_of_valid (h : validateSyncConfig sync = .ok ())
    (planItem : SyncPlanItem) : ∃ item, deleteRunItem platform sync planItem = .ok item := by
  obtain ⟨-, hdestination, -⟩ := validateSyncConfig_ok h
  cases hd : sync.destinationKind with
  | s3 => exact deleteRunItem_isOk (buildTransferEndpoint_destination_s3 hd _)
  | «local» =>
      obtain ⟨file, hfile⟩ := @buildTransferEndpoint_destination_local platform sync hd
        (hdestination hd) planItem.relativePath
      exact deleteRunItem_isOk hfile

/-- Every plan of a validated configuration is accepted unless both sides are local. -/
theorem prepareSyncRunPlan_isOk_iff (h : validateSyncConfig sync = .ok ()) (mode : SyncMode)
    (policy : SyncPolicy) (compareMode : SyncCompareMode) :
    (∀ source destination, ∃ runPlan, prepareSyncRunPlan platform sync
        (buildSyncPlan source destination mode policy compareMode) = .ok runPlan) ↔
      sync.sourceKind = .s3 ∨ sync.destinationKind = .s3 := by
  constructor
  · intro hplans
    -- A path on the source alone is planned for creation.
    obtain ⟨runPlan, hrun⟩ := hplans [⟨[], 0, none, none, false⟩] []
    obtain ⟨item, hitem, hpath⟩ := @exists_buildSyncPlan_item [⟨[], 0, none, none, false⟩] []
      mode policy compareMode [] (.inl rfl)
    obtain ⟨hsource, hdestination, hdecision⟩ := buildSyncPlan_item_spec hitem
    rw [hsource, hdestination, hpath] at hdecision
    have haction : item.action = .create := (congrArg Prod.fst (Option.some.inj hdecision)).symm
    have htransfer : item ∈ (buildSyncPlan [⟨[], 0, none, none, false⟩] [] mode policy
        compareMode).items.filter (·.action.transfers) :=
      List.mem_filter.mpr ⟨hitem, by rw [haction]; rfl⟩
    obtain ⟨runItem, -, hrunItem⟩ := forall₂_exists_right (prepareSyncRunPlan_ok hrun).1 htransfer
    exact (transferRunItem_isOk_iff h item).mp ⟨runItem, hrunItem⟩
  · intro hkinds source destination
    exact prepareSyncRunPlan_isOk
      (fun planItem _ _ => (transferRunItem_isOk_iff h planItem).mpr hkinds)
      (fun planItem _ _ => deleteRunItem_isOk_of_valid h planItem)

end Endpoints

/-! ## The gate -/

/-- Nothing that planning or execution reads of the configuration is rejected or
replaced by a default. -/
structure SoundGate (platform : Platform) (time : TimeCodec) (now : ClockReadings)
    (sync : SyncState) : Prop where
  minSize : trim sync.filters.minSizeText ≠ [] →
    ∃ size, parseSizeFilter sync.filters.minSizeText = some size
  maxSize : trim sync.filters.maxSizeText ≠ [] →
    ∃ size, parseSizeFilter sync.filters.maxSizeText = some size
  newerThan : trim sync.filters.newerThanText ≠ [] →
    ∃ cutoff, parseAgeFilter time now.newerThan sync.filters.newerThanText = some (some cutoff)
  olderThan : trim sync.filters.olderThanText ≠ [] →
    ∃ cutoff, parseAgeFilter time now.olderThan sync.filters.olderThanText = some (some cutoff)
  transferWorkers : ∃ workers, parseTransferWorkers sync.tuning.transferWorkersText = .ok workers
  deleteWorkers : ∃ workers,
    parseDeleteWorkers sync.deleteGuardrails.deleteWorkersText = .ok workers
  runPlan : ∀ source destination, ∃ runPlan, prepareSyncRunPlan platform sync
    (buildSyncPlan source destination sync.mode sync.policy sync.tuning.compareMode) = .ok runPlan

/-- A text that sets no limit, or is a size below the type's range. -/
def SizeReadable (text : Str) : Prop :=
  trim text ≠ [] → ∃ size, IsSize (trim text) size ∧ size < 2 ^ 64

/-- A text that sets no limit, or is an instant or an age with a cutoff. -/
def AgeReadable (time : TimeCodec) (now : Int) (text : Str) : Prop :=
  trim text ≠ [] → (∃ instant, time.parse (trim text) = some instant) ∨
    ∃ seconds, IsAge (trim text) seconds ∧ seconds < 2 ^ 63 ∧ cutoffFits now seconds

/-- What validation does not look at: the filter texts, the transfer worker count,
and whether both sides are local. -/
structure Readable (time : TimeCodec) (now : ClockReadings) (sync : SyncState) : Prop where
  minSize : SizeReadable sync.filters.minSizeText
  maxSize : SizeReadable sync.filters.maxSizeText
  newerThan : AgeReadable time now.newerThan sync.filters.newerThanText
  olderThan : AgeReadable time now.olderThan sync.filters.olderThanText
  transferWorkers : ∃ n, IsNumeral (trim sync.tuning.transferWorkersText) n ∧ 0 < n ∧ n < 2 ^ 64
  kinds : sync.sourceKind = .s3 ∨ sync.destinationKind = .s3

theorem sizeReadable_iff {text : Str} :
    SizeReadable text ↔ (trim text ≠ [] → ∃ size, parseSizeFilter text = some size) := by
  simp only [SizeReadable, parseSizeFilter_eq_some]

theorem ageReadable_iff {time : TimeCodec} {now : Int} {text : Str} :
    AgeReadable time now text ↔
      (trim text ≠ [] → ∃ cutoff, parseAgeFilter time now text = some (some cutoff)) :=
  forall_congr' fun h => (parseAgeFilter_isRead h).symm

/-- A validated configuration passes through planning and execution unchanged exactly
when the texts that validation does not parse are readable and one side is a bucket. -/
theorem soundGate_iff (platform : Platform) (time : TimeCodec) (now : ClockReadings)
    (sync : SyncState) (h : validateSyncConfig sync = .ok ()) :
    SoundGate platform time now sync ↔ Readable time now sync := by
  have hplans := @prepareSyncRunPlan_isOk_iff platform sync h sync.mode sync.policy
    sync.tuning.compareMode
  constructor
  · intro hgate
    exact {
      minSize := sizeReadable_iff.mpr hgate.minSize
      maxSize := sizeReadable_iff.mpr hgate.maxSize
      newerThan := ageReadable_iff.mpr hgate.newerThan
      olderThan := ageReadable_iff.mpr hgate.olderThan
      transferWorkers := parsePositive_isOk.mp hgate.transferWorkers
      kinds := hplans.mp hgate.runPlan }
  · intro hreadable
    exact {
      minSize := sizeReadable_iff.mp hreadable.minSize
      maxSize := sizeReadable_iff.mp hreadable.maxSize
      newerThan := ageReadable_iff.mp hreadable.newerThan
      olderThan := ageReadable_iff.mp hreadable.olderThan
      transferWorkers := parsePositive_isOk.mpr hreadable.transferWorkers
      deleteWorkers := validateSyncConfig_deleteWorkers h
      runPlan := hplans.mpr hreadable.kinds }

/-- A size in megabytes and an age in days and hours. -/
def readableSync : SyncState :=
  { SyncState.betweenBuckets "photos".toList "backup".toList with
    filters :=
      { includePatternsText := []
        excludePatternsText := []
        newerThanText := "2d12h".toList
        olderThanText := []
        minSizeText := " 10 M".toList
        maxSizeText := [] } }

theorem soundGate_iff_readable :
    validateSyncConfig readableSync = .ok () ∧
      (SoundGate .unix noTimes ⟨0, 0⟩ readableSync ↔ Readable noTimes ⟨0, 0⟩ readableSync) :=
  ⟨rfl, soundGate_iff .unix noTimes ⟨0, 0⟩ readableSync rfl⟩

/-- A minimum size that is no size. -/
def mistypedSync : SyncState :=
  { SyncState.betweenBuckets "photos".toList "backup".toList with
    filters := ⟨[], [], [], [], "10 MiB".toList, []⟩ }

/-- A mistyped minimum size is validated, and then read as no minimum at all. -/
theorem mistyped_size_validated :
    ¬ ∀ (platform : Platform) (time : TimeCodec) (now : ClockReadings) (sync : SyncState),
      validateSyncConfig sync = .ok () → SoundGate platform time now sync := by
  intro h
  obtain ⟨size, hsize⟩ := (h .unix noTimes ⟨0, 0⟩ mistypedSync rfl).minSize (by decide)
  have hnone : parseSizeFilter mistypedSync.filters.minSizeText = none := by decide
  rw [hnone] at hsize
  cases hsize

end AbixioUi
