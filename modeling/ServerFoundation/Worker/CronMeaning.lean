import ServerFoundation.Data.Results
import ServerFoundation.Worker.Cron

/-!
# What a schedule means

The fields of a well-formed schedule denote sets: all values, a range, one value, or one of these
in steps, where one value in steps goes on to the end of the field. The parser gives one value for
it, takes a day field for unrestricted when it has every value, and the search ends after five
years; apart from that the search finds the first second that the schedule denotes.
-/

namespace ServerFoundation.Worker

variable {value min max : ℕ} {values : List ℕ} {text : List Char}

/-! ### The standard meaning -/

/-- A range as it is written. -/
inductive CronRange where
  | star
  | pair (first last : ℕ)
  | one (value : ℕ)
deriving DecidableEq, Repr

/-- A range with its step. -/
structure CronPart where
  range : CronRange
  step : Option ℕ
deriving DecidableEq, Repr

/-- A range, if the text is one. -/
def readRange (text : List Char) : Option CronRange :=
  if text = ['*'] then some .star
  else
    match text.splitOn '-' with
    | [first, last] =>
        if isDigits first ∧ isDigits last then some (.pair (decimalValue first) (decimalValue last))
        else none
    | _ => if isDigits text then some (.one (decimalValue text)) else none

/-- A part, if the text is one. -/
def readPart (text : List Char) : Option CronPart :=
  match text.splitOn '/' with
  | [range] => (readRange range).map (⟨·, none⟩)
  | [range, step] =>
      if isDigits step then (readRange range).map (⟨·, some (decimalValue step)⟩) else none
  | _ => none

/-- The first and the last value of a range. -/
def CronRange.span (min max : ℕ) : CronRange → ℕ × ℕ
  | .star => (min, max)
  | .pair first last => (first, last)
  | .one value => (value, value)

namespace CronPart

/-- The first and the last value of a part: one value in steps goes on to the maximum. -/
def span (min max : ℕ) : CronPart → ℕ × ℕ
  | ⟨.one value, some _⟩ => (value, max)
  | ⟨range, _⟩ => range.span min max

/-- Values from the first on in steps, up to the last. -/
def Steps (span : ℕ × ℕ) (step value : ℕ) : Prop :=
  span.1 ≤ value ∧ value ≤ span.2 ∧ (value - span.1) % step = 0

/-- The values that a part denotes. -/
def Has (min max : ℕ) (part : CronPart) (value : ℕ) : Prop :=
  Steps (part.span min max) (part.step.getD 1) value

/-- A part with values within the bounds. -/
structure WellFormed (min max : ℕ) (part : CronPart) : Prop where
  step_pos : 1 ≤ part.step.getD 1
  min_le : min ≤ (part.span min max).1
  ordered : (part.span min max).1 ≤ (part.span min max).2
  le_max : (part.span min max).2 ≤ max

/-- The values that the parser gives for a part. -/
def Reads (min max : ℕ) (part : CronPart) (value : ℕ) : Prop :=
  Steps (part.range.span min max) (part.step.getD 1) value

/-- The step is no finite number. -/
def Overflows (part : CronPart) : Prop := nearest (part.step.getD 1) = ⊤

end CronPart

/-- A field with its bounds, where `fold` gives the values that count as the same. -/
structure CronField where
  text : List Char
  min : ℕ
  max : ℕ
  fold : ℕ → ℕ

namespace CronField

/-- A field whose parts are well-formed. -/
def WellFormed (field : CronField) : Prop :=
  ∀ text ∈ fieldParts field.text, ∃ part, readPart text = some part ∧
    part.WellFormed field.min field.max

/-- A part of the field gives the value. -/
def Given (field : CronField) (gives : CronPart → ℕ → Prop) (value : ℕ) : Prop :=
  ∃ text ∈ fieldParts field.text, ∃ part, readPart text = some part ∧
    ∃ given, gives part given ∧ field.fold given = value

/-- The set that the field denotes. -/
def Has (field : CronField) : ℕ → Prop := field.Given (CronPart.Has field.min field.max)

/-- The values that the parser gives. -/
def Reads (field : CronField) : ℕ → Prop := field.Given (CronPart.Reads field.min field.max)

/-- One of the parts overflows. -/
def Overflows (field : CronField) : Prop :=
  ∃ text ∈ fieldParts field.text, ∃ part, readPart text = some part ∧ part.Overflows

/-- What a single value in steps denotes is in the field without the steps. -/
def StepsCovered (field : CronField) : Prop :=
  ∀ text ∈ fieldParts field.text, ∀ first step, readPart text = some ⟨.one first, some step⟩ →
    ∀ value, CronPart.Steps (first, field.max) step value → field.Reads (field.fold value)

end CronField

namespace CronFields

/-- The field of the seconds. -/
def second (fields : CronFields) : CronField := ⟨fields.seconds, 0, 59, id⟩

/-- The field of the minutes. -/
def minute (fields : CronFields) : CronField := ⟨fields.minutes, 0, 59, id⟩

/-- The field of the hours. -/
def hour (fields : CronFields) : CronField := ⟨fields.hours, 0, 23, id⟩

/-- The field of the days of the month. -/
def dayOfMonth (fields : CronFields) : CronField := ⟨fields.daysOfMonth, 1, 31, id⟩

/-- The field of the months. -/
def month (fields : CronFields) : CronField := ⟨fields.months, 1, 12, id⟩

/-- Sunday is 0 and 7. -/
def dayOfWeek (fields : CronFields) : CronField :=
  ⟨fields.daysOfWeek, 0, 7, fun value => if value = 7 then 0 else value⟩

/-- The fields, with their bounds. -/
def all (fields : CronFields) : List CronField :=
  [fields.second, fields.minute, fields.hour, fields.dayOfMonth, fields.month, fields.dayOfWeek]

/-- Every field is well-formed. -/
def WellFormed (fields : CronFields) : Prop := ∀ field ∈ fields.all, field.WellFormed

/-- A day matches either of two restricted fields, and otherwise both. -/
def DayMatches (fields : CronFields) (day weekday : ℕ) : Prop :=
  if fields.daysOfMonth ≠ ['*'] ∧ fields.daysOfWeek ≠ ['*'] then
    fields.dayOfMonth.Has day ∨ fields.dayOfWeek.Has weekday
  else fields.dayOfMonth.Has day ∧ fields.dayOfWeek.Has weekday

/-- The clock shows a time that all fields match. -/
def Matches (fields : CronFields) (offset second : ℤ) : Prop :=
  let time := getCronTime offset second
  fields.second.Has time.seconds ∧ fields.minute.Has time.minutes ∧ fields.hour.Has time.hours ∧
    fields.month.Has time.month ∧ fields.DayMatches time.dayOfMonth time.dayOfWeek

end CronFields

/-- How the parsed day fields are combined. -/
def ParsedCron.DayMatches (cron : ParsedCron) (day weekday : ℕ) : Prop :=
  if cron.daysOfMonth.length = 31 then
    cron.daysOfWeek.length = 7 ∨ weekday ∈ cron.daysOfWeek
  else if cron.daysOfWeek.length = 7 then day ∈ cron.daysOfMonth
  else day ∈ cron.daysOfMonth ∨ weekday ∈ cron.daysOfWeek

theorem matchesCronMinute_iff (time : CronTime) (cron : ParsedCron) :
    matchesCronMinute time cron = true ↔ time.minutes ∈ cron.minutes ∧ time.hours ∈ cron.hours ∧
      time.month ∈ cron.months ∧ cron.DayMatches time.dayOfMonth time.dayOfWeek := by
  unfold matchesCronMinute ParsedCron.DayMatches
  by_cases minutes : time.minutes ∈ cron.minutes
  · by_cases hours : time.hours ∈ cron.hours
    · by_cases months : time.month ∈ cron.months
      · by_cases days : cron.daysOfMonth.length = 31 <;>
          by_cases weekdays : cron.daysOfWeek.length = 7 <;>
          simp [minutes, hours, months, days, weekdays]
      · simp [minutes, hours, months]
    · simp [minutes, hours]
  · simp [minutes]

/-- The parsed fields are the sets that the schedule denotes, also as days. -/
structure CronFields.Denotes (fields : CronFields) (cron : ParsedCron) : Prop where
  seconds : ∀ value, value ∈ cron.seconds ↔ fields.second.Has value
  minutes : ∀ value, value ∈ cron.minutes ↔ fields.minute.Has value
  hours : ∀ value, value ∈ cron.hours ↔ fields.hour.Has value
  daysOfMonth : ∀ value, value ∈ cron.daysOfMonth ↔ fields.dayOfMonth.Has value
  months : ∀ value, value ∈ cron.months ↔ fields.month.Has value
  daysOfWeek : ∀ value, value ∈ cron.daysOfWeek ↔ fields.dayOfWeek.Has value
  days : ∀ day weekday, 1 ≤ day → day ≤ 31 → weekday < 7 →
    (cron.DayMatches day weekday ↔ fields.DayMatches day weekday)

/-- The delay leads to the first second after now that the schedule denotes, and an error means that
there is none. -/
def EvaluatedExactly (schedule : List Char) (offset now : ℤ) : Prop :=
  ∀ fields, splitSchedule schedule = some fields → fields.WellFormed →
    match getCronDelayMs schedule offset now with
    | .error _ => ∀ second, now < 1000 * second → ¬fields.Matches offset second
    | .ok delay =>
        (∃ cron, parseCron fields = .ok cron ∧ fields.Denotes cron) ∧
          ∃ next, now + delay = 1000 * next ∧ now < 1000 * next ∧ fields.Matches offset next ∧
            ∀ second, now < 1000 * second → second < next → ¬fields.Matches offset second

/-- A day field that is not written as a star has all values only if the other has them too. -/
def CronFields.DaysAgree (fields : CronFields) : Prop :=
  fields.daysOfMonth ≠ ['*'] → fields.daysOfWeek ≠ ['*'] →
    ((∀ day, 1 ≤ day → day ≤ 31 → fields.dayOfMonth.Has day) ↔
      ∀ weekday < 7, fields.dayOfWeek.Has weekday)

/-- The end of the minutes that the search tries. -/
def searchEnd (now : ℤ) : ℤ := now / 1000 + 1 - (now / 1000 + 1) % 60 + 60 * maxMinutes

/-- If the schedule denotes a second after now, no step overflows, single values in steps add
nothing, the day fields agree on being restricted, and such a second lies in the minutes that are
tried. -/
def Evaluable (schedule : List Char) (offset now : ℤ) : Prop :=
  ∀ fields, splitSchedule schedule = some fields → fields.WellFormed →
    (∃ second, now < 1000 * second ∧ fields.Matches offset second) →
      (¬∃ field ∈ fields.all, field.Overflows) ∧ (∀ field ∈ fields.all, field.StepsCovered) ∧
        fields.DaysAgree ∧
          ∃ second, now < 1000 * second ∧ second < searchEnd now ∧ fields.Matches offset second

/-! ### Rounding -/

theorem nearest_of_le (small : value ≤ 2 ^ 50) : nearest value = value := by
  rcases Nat.eq_zero_or_pos value with rfl | positive
  · simp [nearest, JsNumber.round]
  · have above : (0 : ℚ) < value := Nat.cast_pos.mpr positive
    have below : (value : ℚ) ≤ 2 ^ 50 := by exact_mod_cast small
    have limit : (value : ℚ) < 2 ^ ((52 : ℤ) + 1) := by
      refine lt_of_le_of_lt below ?_
      norm_num
    have coarse := JsNumber.log_le_of_lt above limit (by norm_num)
    have multiple : (value : ℚ) = (value : ℤ) * 2 ^ (0 : ℤ) := by simp
    have exact := JsNumber.magnitude_eq_of_multiple above multiple (by omega)
    have finite : ¬(2 : ℚ) ^ 1024 ≤ value := by
      rw [not_le]
      exact lt_of_le_of_lt below (pow_lt_pow_right₀ (by norm_num) (by norm_num))
    rw [nearest, JsNumber.round_eq above.ne', exact, if_neg finite, if_neg above.not_gt]
    simp

theorem lt_nearest {bound : ℕ} (moderate : bound ≤ 2 ^ 40) (large : bound + 1 < value) :
    (bound : WithTop ℕ) < nearest value := by
  by_contra within
  have nonzero : (value : ℚ) ≠ 0 := Nat.cast_ne_zero.mpr (by omega)
  have notNegative : ¬(value : ℚ) < 0 := not_lt.mpr (Nat.cast_nonneg value)
  rw [nearest, JsNumber.round_eq nonzero] at within
  by_cases infinite : (2 : ℚ) ^ 1024 ≤ JsNumber.magnitude value
  · rw [if_pos infinite] at within
    exact within (WithTop.coe_lt_top bound)
  · rw [if_neg infinite, if_neg notNegative] at within
    simp only [Nat.cast_lt, not_lt] at within
    have nonneg := JsNumber.magnitude_nonneg value
    have floor := Int.lt_floor_add_one (JsNumber.magnitude value)
    have floorNonneg : 0 ≤ ⌊JsNumber.magnitude value⌋ := Int.floor_nonneg.mpr nonneg
    have floorLe : ⌊JsNumber.magnitude value⌋ ≤ (bound : ℤ) := by omega
    have floorCast : (⌊JsNumber.magnitude value⌋ : ℚ) ≤ bound := by exact_mod_cast floorLe
    have rounded :
        (JsNumber.finite ((bound + 1 : ℕ) : ℚ)).lt (JsNumber.round value).abs = false := by
      rw [JsNumber.round_eq nonzero, if_neg infinite, if_neg notNegative]
      simp only [JsNumber.abs, JsNumber.lt, abs_of_nonneg nonneg, decide_eq_false_iff_not, not_lt]
      push_cast
      linarith
    have close := JsNumber.abs_le_of_abs_round (by omega) rounded
    rw [abs_of_nonneg (Nat.cast_nonneg value)] at close
    have beyond : ((bound + 2 : ℕ) : ℚ) ≤ value := by exact_mod_cast large
    push_cast at beyond close
    linarith

/-! ### Parsing -/

theorem mem_addValue {other : ℕ} :
    other ∈ addValue values value ↔ other ∈ values ∨ other = value := by
  unfold addValue
  split_ifs with old
  · exact ⟨.inl, fun member => member.elim id fun same => same ▸ old⟩
  · simp

theorem nodup_addValue (nodup : values.Nodup) (value : ℕ) : (addValue values value).Nodup := by
  unfold addValue
  split_ifs with old
  · exact nodup
  · exact List.nodup_append.mpr ⟨nodup, List.nodup_singleton value, by
      rintro first isFirst second isSecond rfl
      exact old (List.mem_singleton.mp isSecond ▸ isFirst)⟩

theorem steps_iff {last step : ℕ} (positive : 1 ≤ step) (ordered : value ≤ last) (other : ℕ) :
    CronPart.Steps (value, last) step other ↔
      other = value ∨ CronPart.Steps (value + step, last) step other := by
  unfold CronPart.Steps
  simp only
  constructor
  · rintro ⟨starts, ends, whole⟩
    by_cases same : other = value
    · exact .inl same
    · have far : step ≤ other - value :=
        Nat.le_of_dvd (by omega) (Nat.dvd_of_mod_eq_zero whole)
      rw [Nat.mod_eq_sub_mod far, Nat.sub_sub] at whole
      exact .inr ⟨by omega, ends, whole⟩
  · rintro (rfl | ⟨starts, ends, whole⟩)
    · exact ⟨le_rfl, ordered, by simp⟩
    · refine ⟨by omega, ends, ?_⟩
      rwa [Nat.mod_eq_sub_mod (by omega), Nat.sub_sub]

theorem addValues_of_lt {step last : ℕ} {value : WithTop ℕ} (beyond : last < value) (rounds : ℕ)
    (values : List ℕ) : addValues min max step last rounds value values = .ok values := by
  cases rounds with
  | zero => rfl
  | succ rounds =>
      unfold addValues
      exact if_pos beyond

theorem addValues_spec {last step rounded : ℕ} (small : max ≤ 59) (lastLe : last ≤ max)
    (positive : 1 ≤ step) (isRounded : nearest step = rounded) (rounds : ℕ) (values : List ℕ)
    (minLe : min ≤ value) (enough : last + 2 ≤ rounds + value) :
    ∃ out, addValues min max rounded last rounds value values = .ok out ∧
      (values.Nodup → out.Nodup) ∧
      ∀ other, other ∈ out ↔ other ∈ values ∨ CronPart.Steps (value, last) step other := by
  by_cases beyond : last < value
  · refine ⟨values, addValues_of_lt (Nat.cast_lt.mpr beyond) rounds values, id, ?_⟩
    intro other
    have empty : ¬CronPart.Steps (value, last) step other := by
      rintro ⟨starts, ends, -⟩
      simp only at starts ends
      omega
    simp [empty]
  induction rounds generalizing value values with
  | zero => omega
  | succ rounds ih =>
      have inside : ¬(last : WithTop ℕ) < value := fun less => beyond (Nat.cast_lt.mp less)
      have inBounds : ¬(value < min ∨ max < value) := by omega
      have round : addValues min max rounded last (rounds + 1) value values =
          addValues min max rounded last rounds (nearest (value + rounded))
            (addValue values value) := by
        conv_lhs => unfold addValues
        rw [if_neg inside]
        exact if_neg inBounds
      rw [round]
      have added (other : ℕ) (rest : Prop)
          (isRest : CronPart.Steps (value + step, last) step other ↔ rest) :
          (other ∈ addValue values value ∨ rest) ↔
            other ∈ values ∨ CronPart.Steps (value, last) step other := by
        rw [steps_iff positive (not_lt.mp beyond), isRest, mem_addValue, or_assoc]
      by_cases far : last < value + step
      · -- The next value ends the loop, whatever it is rounded to.
        have ends : (last : WithTop ℕ) < nearest (value + rounded) := by
          by_cases huge : 61 < step
          · have notSmall : (60 : WithTop ℕ) < rounded := by
              rw [← isRounded]
              exact lt_nearest (by norm_num) huge
            have notSmall : 60 < rounded := by exact_mod_cast notSmall
            refine lt_of_le_of_lt ?_ (lt_nearest (show 59 ≤ 2 ^ 40 by norm_num) (by omega))
            exact Nat.cast_le.mpr (by omega)
          · rw [nearest_of_le (by omega)] at isRounded
            rw [← Nat.cast_inj.mp isRounded, nearest_of_le (by omega)]
            exact Nat.cast_lt.mpr far
        refine ⟨_, addValues_of_lt ends rounds _, fun nodup => nodup_addValue nodup value, ?_⟩
        intro other
        have empty : CronPart.Steps (value + step, last) step other ↔ False := by
          refine ⟨?_, False.elim⟩
          rintro ⟨starts, ends, -⟩
          simp only at starts ends
          omega
        rw [← added other False empty, or_false]
      · rw [nearest_of_le (by omega)] at isRounded
        rw [← Nat.cast_inj.mp isRounded] at ih ⊢
        rw [nearest_of_le (by omega)]
        rcases ih (addValue values value) (by omega) (by omega) far with ⟨out, isOut, nodup, same⟩
        refine ⟨out, isOut, fun before => nodup (nodup_addValue before value), ?_⟩
        intro other
        rw [same, added other _ Iff.rfl]

theorem parseCronRange_spec {range : CronRange} (isRange : readRange text = some range)
    (ordered : (range.span min max).1 ≤ (range.span min max).2)
    (small : (range.span min max).2 ≤ 59) :
    parseCronRange text min max =
      .ok (((range.span min max).1 : WithTop ℕ), ((range.span min max).2 : WithTop ℕ)) := by
  unfold readRange at isRange
  unfold parseCronRange
  by_cases isStar : text = ['*']
  · rw [if_pos isStar] at isRange ⊢
    rw [← Option.some.inj isRange]
    rfl
  rw [if_neg isStar] at isRange ⊢
  have single (isOne : (if isDigits text then some (.one (decimalValue text)) else none) =
      some range) : (if isDigits text then Except.ok (toNumber text, toNumber text)
        else .error (CronError.unsupported text)) =
      .ok (((range.span min max).1 : WithTop ℕ), ((range.span min max).2 : WithTop ℕ)) := by
    split_ifs at isOne with digits
    rw [← Option.some.inj isOne] at small ⊢
    simp only [CronRange.span] at small ⊢
    rw [if_pos digits, toNumber, nearest_of_le (by omega)]
  rcases parts : text.splitOn '-' with _ | ⟨first, _ | ⟨last, _ | ⟨third, rest⟩⟩⟩
  · rw [parts] at isRange
    exact single isRange
  · rw [parts] at isRange
    exact single isRange
  · rw [parts] at isRange
    simp only at isRange
    split_ifs at isRange with digits
    rw [← Option.some.inj isRange] at ordered small ⊢
    simp only [CronRange.span] at ordered small ⊢
    have notLess : ¬((decimalValue last : ℕ) : WithTop ℕ) < (decimalValue first : ℕ) :=
      fun less => absurd (Nat.cast_lt.mp less) (by omega)
    simp only [toNumber, nearest_of_le (show decimalValue first ≤ 2 ^ 50 by omega),
      nearest_of_le (show decimalValue last ≤ 2 ^ 50 by omega), if_pos digits, if_neg notLess]
  · rw [parts] at isRange
    exact single isRange

variable {part : CronPart}

theorem CronPart.WellFormed.range_span (wellFormed : part.WellFormed min max) :
    (part.range.span min max).1 = (part.span min max).1 ∧
      (part.range.span min max).1 ≤ (part.range.span min max).2 ∧
      (part.range.span min max).2 ≤ (part.span min max).2 := by
  rcases part with ⟨range, step⟩
  have ordered := wellFormed.ordered
  cases range with
  | star => exact ⟨rfl, ordered, le_rfl⟩
  | pair first last => exact ⟨rfl, ordered, le_rfl⟩
  | one value =>
      cases step with
      | none => exact ⟨rfl, le_rfl, le_rfl⟩
      | some step => exact ⟨rfl, le_rfl, ordered⟩

theorem CronPart.WellFormed.has_of_reads (wellFormed : part.WellFormed min max)
    (reads : part.Reads min max value) : part.Has min max value := by
  rcases wellFormed.range_span with ⟨same, -, shorter⟩
  rcases reads with ⟨starts, ends, whole⟩
  rw [same] at starts whole
  exact ⟨starts, ends.trans shorter, whole⟩

theorem nearest_one : nearest 1 = (1 : ℕ) := nearest_of_le (by norm_num)

theorem readPart_eq_some (isPart : readPart text = some part) :
    ∃ rangeText, text ≠ [] ∧ (text.splitOn '/').headD [] = rangeText ∧
      readRange rangeText = some part.range ∧
      parseCronStep text (text.splitOn '/')[1]? =
        match nearest (part.step.getD 1) with
        | ⊤ => .error (.invalidStep text)
        | (step : ℕ) => if step < 1 then .error (.invalidStep text) else .ok step := by
  have nonempty : text ≠ [] := by
    rintro rfl
    cases isPart
  unfold readPart at isPart
  split at isPart
  · rename_i range parts
    rcases Option.map_eq_some_iff.mp isPart with ⟨read, isRange, rfl⟩
    refine ⟨range, nonempty, by rw [parts]; rfl, isRange, ?_⟩
    simp [parts, parseCronStep, nearest_one]
  · rename_i range step parts
    split_ifs at isPart with digits
    rcases Option.map_eq_some_iff.mp isPart with ⟨read, isRange, rfl⟩
    refine ⟨range, nonempty, by rw [parts]; rfl, isRange, ?_⟩
    rw [parts]
    exact if_pos digits
  · cases isPart

theorem addCronPart_spec (small : max ≤ 59) (isPart : readPart text = some part)
    (wellFormed : part.WellFormed min max) (values : List ℕ) :
    FailsOn (addCronPart values text min max) part.Overflows fun out =>
      (values.Nodup → out.Nodup) ∧
        ∀ value, value ∈ out ↔ value ∈ values ∨ part.Reads min max value := by
  rcases readPart_eq_some isPart with ⟨rangeText, nonempty, isText, isRange, isStep⟩
  rcases wellFormed.range_span with ⟨same, ordered, shorter⟩
  have bounded := shorter.trans wellFormed.le_max
  have range := parseCronRange_spec isRange ordered (by omega)
  have unfolded : addCronPart values text min max =
      (parseCronStep text (text.splitOn '/')[1]?).bind fun step =>
        (parseCronRange ((text.splitOn '/').headD []) min max).bind fun span =>
          addValues min max step span.2 (max + 2) span.1 values := by
    rw [addCronPart, if_neg nonempty]
    rfl
  rw [unfolded, isStep, isText, range]
  constructor
  · intro overflows
    rw [overflows]
    exact ⟨_, rfl⟩
  · intro finite
    rcases WithTop.ne_top_iff_exists.mp finite with ⟨rounded, isRounded⟩
    have positive : ¬rounded < 1 := by
      intro zero
      by_cases huge : 61 < part.step.getD 1
      · have large := lt_nearest (show 60 ≤ 2 ^ 40 by norm_num) huge
        rw [← isRounded] at large
        have large : 60 < rounded := Nat.cast_lt.mp large
        omega
      · rw [nearest_of_le (by omega)] at isRounded
        have exact : rounded = part.step.getD 1 := Nat.cast_inj.mp isRounded
        have stepPos := wellFormed.step_pos
        omega
    have minLe : min ≤ (part.range.span min max).1 := same ▸ wellFormed.min_le
    have loop := addValues_spec small bounded wellFormed.step_pos isRounded.symm (max + 2) values
      minLe (by omega)
    rw [← isRounded]
    simp only [if_neg positive, Except.bind]
    exact loop

theorem addParts_spec {texts : List (List Char)} (small : max ≤ 59)
    (wellFormed : ∀ text ∈ texts, ∃ part, readPart text = some part ∧ part.WellFormed min max)
    (values : List ℕ) :
    FailsOn (texts.foldlM (fun values part => addCronPart values part min max) values)
      (∃ text ∈ texts, ∃ part, readPart text = some part ∧ part.Overflows) fun out =>
        (values.Nodup → out.Nodup) ∧
          ∀ value, value ∈ out ↔ value ∈ values ∨
            ∃ text ∈ texts, ∃ part, readPart text = some part ∧ part.Reads min max value := by
  induction texts generalizing values with
  | nil => exact (FailsOn.pure ⟨id, by simp⟩).congr (by simp)
  | cons text texts ih =>
      rcases wellFormed text List.mem_cons_self with ⟨part, isPart, isWellFormed⟩
      have others := ih fun other member => wellFormed other (List.mem_cons_of_mem _ member)
      simp only [List.foldlM_cons, List.exists_mem_cons_iff, isPart, Option.some.injEq,
        exists_eq_left']
      refine (addCronPart_spec small isPart isWellFormed values).bind fun next isNext => ?_
      refine ⟨(others next).fails, fun none => ?_⟩
      rcases (others next).succeeds none with ⟨out, isOut, nodup, members⟩
      refine ⟨out, isOut, fun before => nodup (isNext.1 before), fun value => ?_⟩
      rw [members, isNext.2, or_assoc]

/-- What the parser gives for a field, in order and without repetition. -/
structure CronField.ReadAs (field : CronField) (values : List ℕ) : Prop where
  nodup : values.Nodup
  sorted : values.Pairwise (· ≤ ·)
  reads_iff : ∀ value, field.Reads value ↔ ∃ given ∈ values, field.fold given = value

theorem parseCronField_spec {field : CronField} (small : field.max ≤ 59)
    (wellFormed : field.WellFormed) :
    FailsOn (parseCronField field.text field.min field.max) field.Overflows field.ReadAs := by
  refine FailsOn.congr ((addParts_spec small wellFormed []).bind fun out isOut => FailsOn.pure ?_)
    (iff_of_eq (or_false _)).symm
  rcases isOut with ⟨nodup, members⟩
  refine ⟨?_, ?_, fun value => ?_⟩
  · exact (List.mergeSort_perm out _).nodup_iff.mpr (nodup List.nodup_nil)
  · exact (List.pairwise_mergeSort (by simpa using fun a b c => Nat.le_trans)
      (by simpa using Nat.le_total) out).imp (by simp)
  · simp only [List.mem_mergeSort, members, List.not_mem_nil, false_or]
    constructor
    · rintro ⟨text, member, part, isPart, given, reads, same⟩
      exact ⟨given, ⟨text, member, part, isPart, reads⟩, same⟩
    · rintro ⟨given, ⟨text, member, part, isPart, reads⟩, same⟩
      exact ⟨text, member, part, isPart, given, reads, same⟩

/-! ### The parsed schedule -/

/-- The parsed lists hold what is read from the fields. -/
structure CronFields.ReadAs (fields : CronFields) (cron : ParsedCron) : Prop where
  seconds : ∀ value, value ∈ cron.seconds ↔ fields.second.Reads value
  minutes : ∀ value, value ∈ cron.minutes ↔ fields.minute.Reads value
  hours : ∀ value, value ∈ cron.hours ↔ fields.hour.Reads value
  daysOfMonth : ∀ value, value ∈ cron.daysOfMonth ↔ fields.dayOfMonth.Reads value
  months : ∀ value, value ∈ cron.months ↔ fields.month.Reads value
  daysOfWeek : ∀ value, value ∈ cron.daysOfWeek ↔ fields.dayOfWeek.Reads value
  sorted : cron.seconds.Pairwise (· ≤ ·)
  nodupDays : cron.daysOfMonth.Nodup
  nodupWeekdays : cron.daysOfWeek.Nodup

theorem mem_uniqueSorted : value ∈ uniqueSorted values ↔ value ∈ values := by
  have folded (before : List ℕ) : value ∈ values.foldl addValue before ↔
      value ∈ before ∨ value ∈ values := by
    induction values generalizing before with
    | nil => simp
    | cons head values ih => rw [List.foldl_cons, ih, mem_addValue, List.mem_cons, or_assoc]
  rw [uniqueSorted, List.mem_mergeSort, folded]
  simp

theorem nodup_uniqueSorted (values : List ℕ) : (uniqueSorted values).Nodup := by
  have folded (before : List ℕ) (nodup : before.Nodup) : (values.foldl addValue before).Nodup := by
    induction values generalizing before with
    | nil => exact nodup
    | cons head values ih => exact ih _ (nodup_addValue nodup head)
  exact (List.mergeSort_perm _ _).nodup_iff.mpr (folded [] List.nodup_nil)

theorem parseCron_spec {fields : CronFields} (wellFormed : fields.WellFormed) :
    FailsOn (parseCron fields) (∃ field ∈ fields.all, field.Overflows) fields.ReadAs := by
  have parsed (field : CronField) (member : field ∈ fields.all) (small : field.max ≤ 59) :=
    parseCronField_spec small (wellFormed field member)
  have unfolded {field : CronField} {values : List ℕ} (isRead : field.ReadAs values)
      (isId : field.fold = id) (value : ℕ) : value ∈ values ↔ field.Reads value := by
    rw [isRead.reads_iff, isId]
    simp
  simp only [CronFields.all, List.exists_mem_cons_iff, List.not_mem_nil, false_and, exists_false]
  refine (parsed fields.second (by simp [CronFields.all]) (by decide : 59 ≤ 59)).bind
    fun seconds isSeconds => ?_
  refine (parsed fields.minute (by simp [CronFields.all]) (by decide : 59 ≤ 59)).bind
    fun minutes isMinutes => ?_
  refine (parsed fields.hour (by simp [CronFields.all]) (by decide : 23 ≤ 59)).bind
    fun hours isHours => ?_
  refine (parsed fields.dayOfMonth (by simp [CronFields.all]) (by decide : 31 ≤ 59)).bind
    fun daysOfMonth isDaysOfMonth => ?_
  refine (parsed fields.month (by simp [CronFields.all]) (by decide : 12 ≤ 59)).bind
    fun months isMonths => ?_
  refine (parsed fields.dayOfWeek (by simp [CronFields.all]) (by decide : 7 ≤ 59)).bind
    fun weekdays isWeekdays => ?_
  refine FailsOn.pure ?_
  refine ⟨unfolded isSeconds rfl, unfolded isMinutes rfl, unfolded isHours rfl,
    unfolded isDaysOfMonth rfl, unfolded isMonths rfl, fun value => ?_, isSeconds.sorted,
    isDaysOfMonth.nodup, nodup_uniqueSorted _⟩
  rw [mem_uniqueSorted, List.mem_map, isWeekdays.reads_iff]
  rfl

/-! ### What is read and what is meant -/

namespace CronField

variable {field : CronField}

theorem has_of_reads (wellFormed : field.WellFormed) {value : ℕ} (reads : field.Reads value) :
    field.Has value := by
  rcases reads with ⟨text, member, part, isPart, given, isGiven, same⟩
  rcases wellFormed text member with ⟨other, isOther, isWellFormed⟩
  have samePart := Option.some.inj (isPart.symm.trans isOther)
  subst samePart
  exact ⟨text, member, part, isPart, given, isWellFormed.has_of_reads isGiven, same⟩

theorem reads_of_has (covered : field.StepsCovered) {value : ℕ} (has : field.Has value) :
    field.Reads value := by
  rcases has with ⟨text, member, ⟨range, step⟩, isPart, given, isGiven, same⟩
  have here (reads : CronPart.Reads field.min field.max ⟨range, step⟩ given) :
      field.Reads value := ⟨text, member, _, isPart, given, reads, same⟩
  cases range with
  | star => exact here isGiven
  | pair first last => exact here isGiven
  | one first =>
      cases step with
      | none => exact here isGiven
      | some step => exact same ▸ covered text member first step isPart given isGiven

theorem stepsCovered_of_reads (reads : ∀ value, field.Has value → field.Reads value) :
    field.StepsCovered := by
  intro text member first step isPart value steps
  exact reads _ ⟨text, member, _, isPart, value, steps, rfl⟩

theorem bounds_of_has (wellFormed : field.WellFormed) {value : ℕ} (has : field.Has value) :
    ∃ given, field.min ≤ given ∧ given ≤ field.max ∧ field.fold given = value := by
  rcases has with ⟨text, member, part, isPart, given, ⟨starts, ends, -⟩, same⟩
  rcases wellFormed text member with ⟨other, isOther, isWellFormed⟩
  have samePart := Option.some.inj (isPart.symm.trans isOther)
  subst samePart
  exact ⟨given, isWellFormed.min_le.trans starts, ends.trans isWellFormed.le_max, same⟩

theorem wellFormed_of_singleton {text : List Char} {part : CronPart}
    (parts : fieldParts field.text = [text]) (isPart : readPart text = some part)
    (wellFormed : part.WellFormed field.min field.max) : field.WellFormed := by
  intro other member
  rw [parts, List.mem_singleton] at member
  exact ⟨part, member ▸ isPart, wellFormed⟩

theorem reads_of_star (field : CronField) (isStar : field.text = ['*']) {value : ℕ}
    (starts : field.min ≤ value) (ends : value ≤ field.max) : field.Reads (field.fold value) := by
  have parts : fieldParts ['*'] = [['*']] := by decide
  refine ⟨['*'], by rw [isStar, parts]; exact List.mem_singleton_self _, ⟨.star, none⟩, by decide,
    value, ⟨starts, ends, Nat.mod_one _⟩, rfl⟩

end CronField

theorem length_eq_iff (first : ℕ) {count : ℕ} (nodup : values.Nodup)
    (within : ∀ value ∈ values, first ≤ value ∧ value < first + count) :
    values.length = count ↔ ∀ value, first ≤ value → value < first + count → value ∈ values := by
  have sub : values ⊆ List.range' first count := by
    intro value member
    exact List.mem_range'_1.mpr (within value member)
  have subperm := List.subperm_of_subset nodup sub
  constructor
  · intro full value starts ends
    have perm := subperm.perm_of_length_le (by rw [List.length_range', full])
    exact perm.mem_iff.mpr (List.mem_range'_1.mpr ⟨starts, ends⟩)
  · intro every
    have other : List.range' first count ⊆ values := by
      intro value member
      rcases List.mem_range'_1.mp member with ⟨starts, ends⟩
      exact every value starts ends
    have longer := (List.subperm_of_subset List.nodup_range' other).length_le
    have shorter := subperm.length_le
    rw [List.length_range'] at longer shorter
    omega

section Days

variable {fields : CronFields} {cron : ParsedCron}

/-- Every day of a month is read. -/
def CronFields.AllDays (fields : CronFields) : Prop :=
  ∀ day, 1 ≤ day → day ≤ 31 → fields.dayOfMonth.Reads day

/-- Every day of the week is read. -/
def CronFields.AllWeekdays (fields : CronFields) : Prop :=
  ∀ weekday < 7, fields.dayOfWeek.Reads weekday

theorem allDays_of_star (isStar : fields.daysOfMonth = ['*']) : fields.AllDays :=
  fun _ starts ends => CronField.reads_of_star fields.dayOfMonth isStar starts ends

theorem allWeekdays_of_star (isStar : fields.daysOfWeek = ['*']) : fields.AllWeekdays := by
  intro weekday small
  have reads := CronField.reads_of_star fields.dayOfWeek isStar (Nat.zero_le weekday)
    (show weekday ≤ 7 by omega)
  have kept : fields.dayOfWeek.fold weekday = weekday := if_neg (by omega)
  rwa [kept] at reads

theorem dayMatches_parsed_iff (wellFormed : fields.WellFormed) (readAs : fields.ReadAs cron)
    (day weekday : ℕ) :
    cron.DayMatches day weekday ↔
      (fields.AllDays ∧ (fields.AllWeekdays ∨ fields.dayOfWeek.Reads weekday)) ∨
        (¬fields.AllDays ∧ fields.AllWeekdays ∧ fields.dayOfMonth.Reads day) ∨
          (¬fields.AllDays ∧ ¬fields.AllWeekdays ∧
            (fields.dayOfMonth.Reads day ∨ fields.dayOfWeek.Reads weekday)) := by
  have days : cron.daysOfMonth.length = 31 ↔ fields.AllDays := by
    rw [length_eq_iff 1 readAs.nodupDays]
    · simp only [readAs.daysOfMonth, CronFields.AllDays, Nat.lt_succ_iff, Nat.reduceAdd]
    · intro value member
      have isWellFormed := wellFormed fields.dayOfMonth (by simp [CronFields.all])
      have has := CronField.has_of_reads isWellFormed ((readAs.daysOfMonth value).mp member)
      rcases CronField.bounds_of_has isWellFormed has with ⟨given, starts, ends, rfl⟩
      simp only [CronFields.dayOfMonth] at starts ends
      simp only [CronFields.dayOfMonth, id]
      omega
  have weekdays : cron.daysOfWeek.length = 7 ↔ fields.AllWeekdays := by
    rw [length_eq_iff 0 readAs.nodupWeekdays]
    · simp only [readAs.daysOfWeek, CronFields.AllWeekdays, Nat.zero_le, Nat.zero_add,
        true_implies]
    · intro value member
      have isWellFormed := wellFormed fields.dayOfWeek (by simp [CronFields.all])
      have has := CronField.has_of_reads isWellFormed ((readAs.daysOfWeek value).mp member)
      rcases CronField.bounds_of_has isWellFormed has with ⟨given, -, ends, rfl⟩
      simp only [CronFields.dayOfWeek] at ends ⊢
      split_ifs <;> omega
  unfold ParsedCron.DayMatches
  by_cases allDays : fields.AllDays <;> by_cases allWeekdays : fields.AllWeekdays <;>
    simp [days, weekdays, readAs.daysOfMonth, readAs.daysOfWeek, allDays, allWeekdays]

theorem dayMatches_of_parsed (wellFormed : fields.WellFormed) (readAs : fields.ReadAs cron)
    {day weekday : ℕ} (starts : 1 ≤ day) (ends : day ≤ 31) (small : weekday < 7)
    (matched : cron.DayMatches day weekday) : fields.DayMatches day weekday := by
  have hasDay : fields.dayOfMonth.Reads day → fields.dayOfMonth.Has day :=
    CronField.has_of_reads (wellFormed _ (by simp [CronFields.all]))
  have hasWeekday : fields.dayOfWeek.Reads weekday → fields.dayOfWeek.Has weekday :=
    CronField.has_of_reads (wellFormed _ (by simp [CronFields.all]))
  have both (readsDay : fields.dayOfMonth.Reads day)
      (readsWeekday : fields.dayOfWeek.Reads weekday) : fields.DayMatches day weekday := by
    unfold CronFields.DayMatches
    split_ifs
    · exact .inl (hasDay readsDay)
    · exact ⟨hasDay readsDay, hasWeekday readsWeekday⟩
  rcases (dayMatches_parsed_iff wellFormed readAs day weekday).mp matched with
    ⟨allDays, allWeekdays | reads⟩ | ⟨-, allWeekdays, reads⟩ | ⟨someDays, someWeekdays, either⟩
  · exact both (allDays day starts ends) (allWeekdays weekday small)
  · exact both (allDays day starts ends) reads
  · exact both reads (allWeekdays weekday small)
  · have restricted : fields.daysOfMonth ≠ ['*'] ∧ fields.daysOfWeek ≠ ['*'] :=
      ⟨fun isStar => someDays (allDays_of_star isStar),
        fun isStar => someWeekdays (allWeekdays_of_star isStar)⟩
    rw [CronFields.DayMatches, if_pos restricted]
    exact either.imp hasDay hasWeekday

theorem days_iff (wellFormed : fields.WellFormed) (readAs : fields.ReadAs cron)
    (sameDays : ∀ value, fields.dayOfMonth.Has value ↔ fields.dayOfMonth.Reads value)
    (sameWeekdays : ∀ value, fields.dayOfWeek.Has value ↔ fields.dayOfWeek.Reads value) :
    (∀ day weekday, 1 ≤ day → day ≤ 31 → weekday < 7 →
        (cron.DayMatches day weekday ↔ fields.DayMatches day weekday)) ↔ fields.DaysAgree := by
  simp only [CronFields.DaysAgree, sameDays, sameWeekdays]
  change _ ↔ (_ → _ → (fields.AllDays ↔ fields.AllWeekdays))
  constructor
  · intro same notStar notStarWeek
    have restricted (day weekday : ℕ) : fields.DayMatches day weekday ↔
        fields.dayOfMonth.Reads day ∨ fields.dayOfWeek.Reads weekday := by
      rw [CronFields.DayMatches, if_pos ⟨notStar, notStarWeek⟩, sameDays, sameWeekdays]
    constructor
    · intro allDays weekday small
      have matched := (same 1 weekday le_rfl (by decide) small).mpr
        ((restricted 1 weekday).mpr (.inl (allDays 1 le_rfl (by decide))))
      rcases (dayMatches_parsed_iff wellFormed readAs 1 weekday).mp matched with
        ⟨-, allWeekdays | reads⟩ | ⟨someDays, -⟩ | ⟨someDays, -⟩
      · exact allWeekdays weekday small
      · exact reads
      · exact absurd allDays someDays
      · exact absurd allDays someDays
    · intro allWeekdays day starts ends
      have matched := (same day 0 starts ends (by decide)).mpr
        ((restricted day 0).mpr (.inr (allWeekdays 0 (by decide))))
      rcases (dayMatches_parsed_iff wellFormed readAs day 0).mp matched with
        ⟨allDays, -⟩ | ⟨-, -, reads⟩ | ⟨-, someWeekdays, -⟩
      · exact allDays day starts ends
      · exact reads
      · exact absurd allWeekdays someWeekdays
  · intro agree day weekday starts ends small
    refine ⟨dayMatches_of_parsed wellFormed readAs starts ends small, fun meant => ?_⟩
    rw [dayMatches_parsed_iff wellFormed readAs]
    unfold CronFields.DayMatches at meant
    split_ifs at meant with restricted
    · rw [sameDays, sameWeekdays] at meant
      have bothOrNone := agree restricted.1 restricted.2
      by_cases allDays : fields.AllDays
      · exact .inl ⟨allDays, .inl (bothOrNone.mp allDays)⟩
      · exact .inr (.inr ⟨allDays, fun allWeekdays => allDays (bothOrNone.mpr allWeekdays), meant⟩)
    · rw [sameDays, sameWeekdays] at meant
      by_cases allDays : fields.AllDays
      · exact .inl ⟨allDays, .inr meant.2⟩
      · by_cases allWeekdays : fields.AllWeekdays
        · exact .inr (.inl ⟨allDays, allWeekdays, meant.1⟩)
        · exact .inr (.inr ⟨allDays, allWeekdays, .inl meant.1⟩)

end Days

/-! ### Exact evaluation -/

section Evaluation

variable {fields : CronFields} {cron : ParsedCron}

theorem CronFields.ReadAs.ordered (wellFormed : fields.WellFormed) (readAs : fields.ReadAs cron) :
    cron.Ordered := by
  refine ⟨readAs.sorted, fun second member => ?_⟩
  have isWellFormed := wellFormed fields.second (by simp [CronFields.all])
  have has := CronField.has_of_reads isWellFormed ((readAs.seconds second).mp member)
  rcases CronField.bounds_of_has isWellFormed has with ⟨given, -, ends, rfl⟩
  simp only [CronFields.second] at ends
  simp only [CronFields.second, id]
  omega

theorem clock_day (offset second : ℤ) :
    1 ≤ (getCronTime offset second).dayOfMonth ∧ (getCronTime offset second).dayOfMonth ≤ 31 ∧
      (getCronTime offset second).dayOfWeek < 7 :=
  ⟨(Calendar.day_civilDate _).1, (Calendar.day_civilDate _).2, Calendar.weekday_lt _⟩

theorem matches_of_fires (wellFormed : fields.WellFormed) (readAs : fields.ReadAs cron)
    {offset second : ℤ} (fires : cron.Fires offset second) : fields.Matches offset second := by
  have has (field : CronField) (member : field ∈ fields.all) {value : ℕ} :
      field.Reads value → field.Has value := CronField.has_of_reads (wellFormed field member)
  rcases clock_day offset second with ⟨starts, ends, small⟩
  rcases fires with ⟨inMinute, inSeconds⟩
  rcases (matchesCronMinute_iff _ _).mp inMinute with ⟨minutes, hours, months, days⟩
  exact ⟨has _ (by simp [CronFields.all]) ((readAs.seconds _).mp inSeconds),
    has _ (by simp [CronFields.all]) ((readAs.minutes _).mp minutes),
    has _ (by simp [CronFields.all]) ((readAs.hours _).mp hours),
    has _ (by simp [CronFields.all]) ((readAs.months _).mp months),
    dayMatches_of_parsed wellFormed readAs starts ends small days⟩

theorem fires_of_matches (denotes : fields.Denotes cron) {offset second : ℤ}
    (matched : fields.Matches offset second) : cron.Fires offset second := by
  rcases clock_day offset second with ⟨starts, ends, small⟩
  rcases matched with ⟨seconds, minutes, hours, months, days⟩
  refine ⟨(matchesCronMinute_iff _ _).mpr ⟨(denotes.minutes _).mpr minutes,
    (denotes.hours _).mpr hours, (denotes.months _).mpr months,
    (denotes.days _ _ starts ends small).mpr days⟩, ?_⟩
  exact (denotes.seconds _).mpr seconds

/-- The parsed fields are those that are meant when single values in steps add nothing and the day
fields agree on being restricted. -/
theorem denotes_iff (wellFormed : fields.WellFormed) (readAs : fields.ReadAs cron) :
    fields.Denotes cron ↔ (∀ field ∈ fields.all, field.StepsCovered) ∧ fields.DaysAgree := by
  have has (field : CronField) (member : field ∈ fields.all) {value : ℕ} :
      field.Reads value → field.Has value := CronField.has_of_reads (wellFormed field member)
  constructor
  · intro denotes
    have reads : ∀ field ∈ fields.all, ∀ value, field.Has value → field.Reads value := by
      intro field member value
      simp only [CronFields.all, List.mem_cons, List.not_mem_nil, or_false] at member
      rcases member with rfl | rfl | rfl | rfl | rfl | rfl
      · rw [← denotes.seconds, readAs.seconds]; exact id
      · rw [← denotes.minutes, readAs.minutes]; exact id
      · rw [← denotes.hours, readAs.hours]; exact id
      · rw [← denotes.daysOfMonth, readAs.daysOfMonth]; exact id
      · rw [← denotes.months, readAs.months]; exact id
      · rw [← denotes.daysOfWeek, readAs.daysOfWeek]; exact id
    refine ⟨fun field member => CronField.stepsCovered_of_reads (reads field member), ?_⟩
    refine (days_iff wellFormed readAs ?_ ?_).mp denotes.days
    · intro value
      exact ⟨reads _ (by simp [CronFields.all]) value, has _ (by simp [CronFields.all])⟩
    · intro value
      exact ⟨reads _ (by simp [CronFields.all]) value, has _ (by simp [CronFields.all])⟩
  · rintro ⟨covered, agree⟩
    have same (field : CronField) (member : field ∈ fields.all) (value : ℕ) :
        field.Reads value ↔ field.Has value :=
      ⟨has field member, CronField.reads_of_has (covered field member)⟩
    refine ⟨fun value => ?_, fun value => ?_, fun value => ?_, fun value => ?_, fun value => ?_,
      fun value => ?_, ?_⟩
    · exact (readAs.seconds value).trans (same _ (by simp [CronFields.all]) value)
    · exact (readAs.minutes value).trans (same _ (by simp [CronFields.all]) value)
    · exact (readAs.hours value).trans (same _ (by simp [CronFields.all]) value)
    · exact (readAs.daysOfMonth value).trans (same _ (by simp [CronFields.all]) value)
    · exact (readAs.months value).trans (same _ (by simp [CronFields.all]) value)
    · exact (readAs.daysOfWeek value).trans (same _ (by simp [CronFields.all]) value)
    · refine (days_iff wellFormed readAs (fun value => ?_) fun value => ?_).mpr agree
      · exact (same _ (by simp [CronFields.all]) value).symm
      · exact (same _ (by simp [CronFields.all]) value).symm

/-- The delay leads to the first second at which the parsed fields fire, and the search fails when
there is none in the minutes that it tries. -/
theorem getCronDelayMs_spec {schedule : List Char} (isSplit : splitSchedule schedule = some fields)
    (isCron : parseCron fields = .ok cron) (ordered : cron.Ordered) (offset now : ℤ) :
    match getCronDelayMs schedule offset now with
    | .error _ => ∀ second, now < 1000 * second → second < searchEnd now → ¬cron.Fires offset second
    | .ok delay => ∃ next, now + delay = 1000 * next ∧ now < 1000 * next ∧ next < searchEnd now ∧
        cron.Fires offset next ∧
          ∀ second, now < 1000 * second → second < next → ¬cron.Fires offset second := by
  have future : now < 1000 * (now / 1000 + 1) := by omega
  have search := @searchCron_spec cron offset now ordered maxMinutes _ future
  have delay : getCronDelayMs schedule offset now =
      (nextCronDate cron offset now).bind fun next => .ok (max 1 (1000 * next - now)) := by
    simp only [getCronDelayMs, isSplit, isCron]
    rfl
  rw [delay, nextCronDate]
  cases found : searchCron cron offset now maxMinutes (now / 1000 + 1) with
  | none =>
      rw [found] at search
      exact fun second later inside => search second (by omega) inside
  | some next =>
      rw [found] at search
      rcases search with ⟨fires, starts, ends, first⟩
      refine ⟨next, ?_, by omega, ends, fires, fun second later => first second (by omega)⟩
      rw [max_eq_right (by omega)]
      omega

end Evaluation

/-- A schedule is evaluated exactly if and only if it avoids what the parser and the search leave
out. -/
theorem evaluatedExactly_iff_evaluable (schedule : List Char) (offset now : ℤ) :
    EvaluatedExactly schedule offset now ↔ Evaluable schedule offset now := by
  unfold EvaluatedExactly Evaluable
  refine forall_congr' fun fields => forall_congr' fun isSplit => forall_congr' fun wellFormed => ?_
  have parsed := parseCron_spec wellFormed
  by_cases overflow : ∃ field ∈ fields.all, field.Overflows
  · rcases parsed.fails overflow with ⟨error, isError⟩
    have fails : getCronDelayMs schedule offset now = .error error := by
      simp only [getCronDelayMs, isSplit, isError]
      rfl
    simp [fails, overflow]
  rcases parsed.succeeds overflow with ⟨cron, isCron, readAs⟩
  have spec := getCronDelayMs_spec isSplit isCron (readAs.ordered wellFormed) offset now
  constructor
  · intro exactly some
    cases result : getCronDelayMs schedule offset now with
    | error error =>
        rw [result] at exactly
        rcases some with ⟨second, later, matched⟩
        exact absurd matched (exactly second later)
    | ok delay =>
        rw [result] at exactly spec
        rcases exactly with ⟨⟨other, isOther, denotes⟩, next, isNext, -, matched, -⟩
        rcases spec with ⟨last, isLast, later, inside, -⟩
        have sameCron := Except.ok.inj (isOther.symm.trans isCron)
        subst sameCron
        have sameSecond : last = next := by omega
        subst sameSecond
        have conditions := (denotes_iff wellFormed readAs).mp denotes
        exact ⟨overflow, conditions.1, conditions.2, last, later, inside, matched⟩
  · intro conditions
    cases result : getCronDelayMs schedule offset now with
    | error error =>
        rw [result] at spec
        intro second later matched
        rcases conditions ⟨second, later, matched⟩ with ⟨-, covered, agree, near⟩
        rcases near with ⟨first, isLater, inside, isMatch⟩
        have denotes := (denotes_iff wellFormed readAs).mpr ⟨covered, agree⟩
        exact spec first isLater inside (fires_of_matches denotes isMatch)
    | ok delay =>
        rw [result] at spec
        rcases spec with ⟨next, isNext, later, inside, fires, first⟩
        have matched := matches_of_fires wellFormed readAs fires
        rcases conditions ⟨next, later, matched⟩ with ⟨-, covered, agree, -⟩
        have denotes := (denotes_iff wellFormed readAs).mpr ⟨covered, agree⟩
        refine ⟨⟨cron, isCron, denotes⟩, next, isNext, later, matched, ?_⟩
        intro second isLater before isMatch
        exact first second isLater before (fires_of_matches denotes isMatch)

/-- Every quarter from the fifth minute on, of which the runner keeps the fifth minute only. -/
def quarterFields : CronFields := ⟨['0'], ['5', '/', '1', '5'], ['*'], ['*'], ['*'], ['*']⟩

theorem wellFormed_quarterFields : quarterFields.WellFormed := by
  have star {min max : ℕ} (ordered : min ≤ max) : CronPart.WellFormed min max ⟨.star, none⟩ :=
    ⟨le_rfl, le_rfl, ordered, le_rfl⟩
  have single {text : List Char} {min max : ℕ} {fold : ℕ → ℕ} (part : CronPart)
      (parts : fieldParts text = [text]) (isPart : readPart text = some part)
      (isWellFormed : part.WellFormed min max) : CronField.WellFormed ⟨text, min, max, fold⟩ :=
    CronField.wellFormed_of_singleton parts isPart isWellFormed
  intro field member
  simp only [CronFields.all, List.mem_cons, List.not_mem_nil, or_false] at member
  rcases member with rfl | rfl | rfl | rfl | rfl | rfl
  · exact single ⟨.one 0, none⟩ (by decide) (by decide) ⟨le_rfl, le_rfl, le_rfl, by decide⟩
  · exact single ⟨.one 5, some 15⟩ (by decide) (by decide)
      ⟨by decide, by decide, by decide, le_rfl⟩
  · exact single _ (by decide) (by decide) (star (by decide))
  · exact single _ (by decide) (by decide) (star (by decide))
  · exact single _ (by decide) (by decide) (star (by decide))
  · exact single _ (by decide) (by decide) (star (by decide))

/-- At six minutes past, the next run is the one at twenty past, which the runner misses. -/
theorem not_evaluatedExactly_quarters : ¬EvaluatedExactly "5/15 * * * *".toList 0 360000 := by
  intro exactly
  have result := exactly quarterFields (by decide) wellFormed_quarterFields
  have matched : quarterFields.Matches 0 1200 := by
    have star {field : CronField} (isStar : field.text = ['*']) (member : field ∈ quarterFields.all)
        (value : ℕ) (starts : field.min ≤ value) (ends : value ≤ field.max) :
        field.Has (field.fold value) :=
      CronField.has_of_reads (wellFormed_quarterFields field member)
        (CronField.reads_of_star field isStar starts ends)
    refine ⟨⟨['0'], by decide, ⟨.one 0, none⟩, by decide, 0,
        ⟨by decide, by decide, by decide⟩, rfl⟩,
      ⟨['5', '/', '1', '5'], by decide, ⟨.one 5, some 15⟩, by decide, 20,
        ⟨by decide, by decide, by decide⟩, rfl⟩,
      star rfl (by simp [CronFields.all]) 0 (by decide) (by decide),
      star rfl (by simp [CronFields.all]) 1 (by decide) (by decide), ?_⟩
    exact ⟨star rfl (by simp [CronFields.all]) 1 (by decide) (by decide),
      star rfl (by simp [CronFields.all]) 4 (by decide) (by decide)⟩
  split at result
  · exact result 1200 (by decide) matched
  · rcases result with ⟨⟨cron, isCron, denotes⟩, -⟩
    have parsed := parseCron_spec wellFormed_quarterFields
    have finite : ¬∃ field ∈ quarterFields.all, field.Overflows := by
      intro overflow
      rcases parsed.fails overflow with ⟨error, isError⟩
      cases isError.symm.trans isCron
    rcases parsed.succeeds finite with ⟨other, isOther, readAs⟩
    rw [Except.ok.inj (isOther.symm.trans isCron)] at readAs
    have isMissed : (20 : ℕ) ∈ cron.minutes := (denotes.minutes 20).mpr matched.2.1
    rcases (readAs.minutes 20).mp isMissed with ⟨text, member, part, isPart, given, reads, same⟩
    have onlyPart : fieldParts quarterFields.minute.text = [['5', '/', '1', '5']] := by decide
    rw [onlyPart, List.mem_singleton] at member
    have isQuarter : readPart ['5', '/', '1', '5'] = some ⟨.one 5, some 15⟩ := by decide
    rw [member, isQuarter] at isPart
    rw [← Option.some.inj isPart] at reads
    have isFive : given ≤ 5 := reads.2.1
    change given = 20 at same
    omega

end ServerFoundation.Worker
