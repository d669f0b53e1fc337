import ServerFoundation.Data.Calendar
import ServerFoundation.Data.NumberConversion

/-!
# The search for the next run of a schedule

The fields of a schedule are parsed to lists of values, and the minutes after now are tried one by
one until one matches. The search gives the first second that matches the parsed fields, if there
is one within its attempts.

The time zone is an offset of whole minutes; the time of now is given in milliseconds.
-/

namespace ServerFoundation.Worker

/-- Why a schedule is refused. -/
inductive CronError where
  | invalidSchedule (schedule : List Char)
  | emptyField
  | invalidStep (expression : List Char)
  | outside (value : WithTop ℕ) (min max : ℕ)
  | invalidRange (expression : List Char)
  | unsupported (expression : List Char)
  | noExecution
deriving DecidableEq

/-- The message of an error. -/
def CronError.message : CronError → String
  | invalidSchedule schedule => "Invalid cron schedule \"" ++ .ofList schedule ++ "\""
  | emptyField => "Invalid empty cron field"
  | invalidStep expression => "Invalid cron step \"" ++ .ofList expression ++ "\""
  | outside value min max =>
      let number : JsNumber := value.recTopCoe (.infinite false) fun value => .finite value
      "Cron value " ++ .ofList number.text ++ " is outside " ++ toString min ++ "-" ++ toString max
  | invalidRange expression => "Invalid cron range \"" ++ .ofList expression ++ "\""
  | unsupported expression => "Unsupported cron field \"" ++ .ofList expression ++ "\""
  | noExecution => "Could not calculate next cron execution within five years"

/-- The expression `/^\d+$/`. -/
def isDigits (text : List Char) : Bool := text ≠ [] ∧ text.all Char.isDigit

/-- The number that decimal digits denote. -/
def decimalValue (digits : List Char) : ℕ :=
  digits.foldl (fun value digit => 10 * value + (digit.toNat - 48)) 0

/-- The number nearest to a natural number, where the top is infinity. -/
def nearest (value : ℕ) : WithTop ℕ :=
  match JsNumber.round value with
  | .finite number => (⌊number⌋.toNat : ℕ)
  | _ => ⊤

/-- `Number(text)` for a text of digits. -/
def toNumber (digits : List Char) : WithTop ℕ := nearest (decimalValue digits)

/-- `parseCronRange`. -/
def parseCronRange (expression : List Char) (min max : ℕ) :
    Except CronError (WithTop ℕ × WithTop ℕ) :=
  if expression = ['*'] then .ok (min, max)
  else
    match expression.splitOn '-' with
    | [first, last] =>
        if isDigits first ∧ isDigits last then
          if toNumber last < toNumber first then .error (.invalidRange expression)
          else .ok (toNumber first, toNumber last)
        else .error (.unsupported expression)
    | _ =>
        if isDigits expression then .ok (toNumber expression, toNumber expression)
        else .error (.unsupported expression)

/-- Adding to a `Set`. -/
def addValue (values : List ℕ) (value : ℕ) : List ℕ :=
  if value ∈ values then values else values ++ [value]

/-- The loop of `addCronPart`. A value above the maximum ends it, so that as many rounds as there
are values are enough. -/
def addValues (min max step : ℕ) (stop : WithTop ℕ) :
    ℕ → WithTop ℕ → List ℕ → Except CronError (List ℕ)
  | 0, _, values => .ok values
  | rounds + 1, value, values =>
      if stop < value then .ok values
      else
        match value with
        | ⊤ => .error (.outside ⊤ min max)
        | (value : ℕ) =>
            if value < min ∨ max < value then .error (.outside value min max)
            else addValues min max step stop rounds (nearest (value + step)) (addValue values value)

/-- The step of a part, where `stepExpression` is what follows its first slash. -/
def parseCronStep (expression : List Char) : Option (List Char) → Except CronError ℕ
  | none => .ok 1
  | some stepExpression =>
      if isDigits stepExpression then
        match toNumber stepExpression with
        | ⊤ => .error (.invalidStep expression)
        | (step : ℕ) => if step < 1 then .error (.invalidStep expression) else .ok step
      else .error (.invalidStep expression)

/-- `addCronPart`. -/
def addCronPart (values : List ℕ) (expression : List Char) (min max : ℕ) :
    Except CronError (List ℕ) :=
  if expression = [] then .error .emptyField
  else do
    let parts := expression.splitOn '/'
    let step ← parseCronStep expression parts[1]?
    let (start, stop) ← parseCronRange (parts.headD []) min max
    addValues min max step stop (max + 2) start values

/-- The parts of a field. -/
def fieldParts (expression : List Char) : List (List Char) :=
  (expression.splitOn ',').map JsNumber.trim

/-- `parseCronField`. -/
def parseCronField (expression : List Char) (min max : ℕ) : Except CronError (List ℕ) := do
  let values ← (fieldParts expression).foldlM
    (fun values part => addCronPart values part min max) []
  return values.mergeSort

/-- `uniqueSorted`. -/
def uniqueSorted (values : List ℕ) : List ℕ := (values.foldl addValue []).mergeSort

/-- The six fields of a schedule. -/
structure CronFields where
  seconds : List Char
  minutes : List Char
  hours : List Char
  daysOfMonth : List Char
  months : List Char
  daysOfWeek : List Char
deriving DecidableEq, Repr

/-- The words of a schedule; without seconds the schedule starts at the minute. -/
def splitSchedule (schedule : List Char) : Option CronFields :=
  match ((JsNumber.trim schedule).splitOnP JsNumber.isWhiteSpace).filter (· ≠ []) with
  | [minutes, hours, daysOfMonth, months, daysOfWeek] =>
      some ⟨['0'], minutes, hours, daysOfMonth, months, daysOfWeek⟩
  | [seconds, minutes, hours, daysOfMonth, months, daysOfWeek] =>
      some ⟨seconds, minutes, hours, daysOfMonth, months, daysOfWeek⟩
  | _ => none

/-- `ParsedCron`. -/
structure ParsedCron where
  seconds : List ℕ
  minutes : List ℕ
  hours : List ℕ
  daysOfMonth : List ℕ
  months : List ℕ
  daysOfWeek : List ℕ
deriving DecidableEq, Repr

/-- The parsed fields of a schedule. -/
def parseCron (fields : CronFields) : Except CronError ParsedCron := do
  let seconds ← parseCronField fields.seconds 0 59
  let minutes ← parseCronField fields.minutes 0 59
  let hours ← parseCronField fields.hours 0 23
  let daysOfMonth ← parseCronField fields.daysOfMonth 1 31
  let months ← parseCronField fields.months 1 12
  let weekdays ← parseCronField fields.daysOfWeek 0 7
  let daysOfWeek := uniqueSorted (weekdays.map fun value => if value = 7 then 0 else value)
  return { seconds, minutes, hours, daysOfMonth, months, daysOfWeek }

/-- `CronTime`. -/
structure CronTime where
  seconds : ℕ
  minutes : ℕ
  hours : ℕ
  dayOfMonth : ℕ
  month : ℕ
  dayOfWeek : ℕ
deriving DecidableEq, Repr

/-- The time on the clock at a second, in a zone that is ahead by some minutes. -/
def getCronTime (offset second : ℤ) : CronTime :=
  let minute := second / 60 + offset
  let date := Calendar.civilDate (minute / 1440)
  { seconds := (second % 60).toNat
    minutes := (minute % 60).toNat
    hours := (minute / 60 % 24).toNat
    dayOfMonth := date.day
    month := date.month
    dayOfWeek := Calendar.weekday (minute / 1440) }

/-- `matchesCronMinute`. -/
def matchesCronMinute (time : CronTime) (cron : ParsedCron) : Bool :=
  if time.minutes ∉ cron.minutes then false
  else if time.hours ∉ cron.hours then false
  else if time.month ∉ cron.months then false
  else
    let dayOfMonthWildcard := cron.daysOfMonth.length = 31
    let dayOfWeekWildcard := cron.daysOfWeek.length = 7
    let dayOfMonthMatches := time.dayOfMonth ∈ cron.daysOfMonth
    let dayOfWeekMatches := time.dayOfWeek ∈ cron.daysOfWeek
    if dayOfMonthWildcard ∧ dayOfWeekWildcard then true
    else if dayOfMonthWildcard then dayOfWeekMatches
    else if dayOfWeekWildcard then dayOfMonthMatches
    else dayOfMonthMatches ∨ dayOfWeekMatches

/-- The attempts of the search, from a candidate on. -/
def searchCron (cron : ParsedCron) (offset now : ℤ) : ℕ → ℤ → Option ℤ
  | 0, _ => none
  | attempts + 1, candidate =>
      let time := getCronTime offset candidate
      let found :=
        if matchesCronMinute time cron then
          (cron.seconds.find? fun value => decide (time.seconds ≤ value)).bind fun second =>
            let next := candidate - candidate % 60 + second
            if now < 1000 * next then some next else none
        else none
      match found with
      | some next => some next
      | none => searchCron cron offset now attempts (candidate - candidate % 60 + 60)

/-- `maxMinutes`. -/
def maxMinutes : ℕ := 366 * 5 * 24 * 60

/-- The next run as a second. -/
def nextCronDate (cron : ParsedCron) (offset now : ℤ) : Except CronError ℤ :=
  match searchCron cron offset now maxMinutes (now / 1000 + 1) with
  | some next => .ok next
  | none => .error .noExecution

/-- `getCronDelayMs`. -/
def getCronDelayMs (schedule : List Char) (offset now : ℤ) : Except CronError ℤ :=
  match splitSchedule schedule with
  | none => .error (.invalidSchedule schedule)
  | some fields => do
      let cron ← parseCron fields
      let next ← nextCronDate cron offset now
      return max 1 (1000 * next - now)

/-! ### The search -/

/-- A second that the parsed fields match. -/
def ParsedCron.Fires (cron : ParsedCron) (offset second : ℤ) : Prop :=
  matchesCronMinute (getCronTime offset second) cron = true ∧ (second % 60).toNat ∈ cron.seconds

/-- The seconds are those of a minute, in order. -/
structure ParsedCron.Ordered (cron : ParsedCron) : Prop where
  sorted : cron.seconds.Pairwise (· ≤ ·)
  lt_sixty : ∀ second ∈ cron.seconds, second < 60

section Search

variable {cron : ParsedCron} {offset now : ℤ}

theorem fires_iff_of_same_minute (second other : ℤ) (same : second / 60 = other / 60) :
    cron.Fires offset second ↔
      matchesCronMinute (getCronTime offset other) cron = true ∧
        (second % 60).toNat ∈ cron.seconds := by
  have sameTime : getCronTime offset second =
      { getCronTime offset other with seconds := (second % 60).toNat } := by
    simp only [getCronTime, same]
  have sameMatch : matchesCronMinute (getCronTime offset second) cron =
      matchesCronMinute (getCronTime offset other) cron := by
    rw [sameTime]
    rfl
  rw [ParsedCron.Fires, sameMatch]

theorem attempt_some (ordered : cron.Ordered) {candidate : ℤ} {value : ℕ}
    (isMatch : matchesCronMinute (getCronTime offset candidate) cron = true)
    (found : (cron.seconds.find? fun value =>
      decide ((getCronTime offset candidate).seconds ≤ value)) = some value) :
    cron.Fires offset (candidate - candidate % 60 + value) ∧ candidate % 60 ≤ value ∧ value < 60 ∧
      ∀ second, candidate ≤ second → second < candidate - candidate % 60 + value →
        ¬cron.Fires offset second := by
  rcases List.find?_eq_some_iff_append.mp found with ⟨late, before, after, same, early⟩
  have late : (candidate % 60).toNat ≤ value := of_decide_eq_true late
  have member : value ∈ cron.seconds := by simp [same]
  have small := ordered.lt_sixty value member
  refine ⟨?_, by omega, small, ?_⟩
  · rw [fires_iff_of_same_minute _ candidate (by omega)]
    refine ⟨isMatch, ?_⟩
    have second : ((candidate - candidate % 60 + value) % 60).toNat = value := by omega
    rwa [second]
  · intro second starts ends fires
    rw [fires_iff_of_same_minute _ candidate (by omega), same] at fires
    rcases List.mem_append.mp fires.2 with isEarly | isLate
    · have notYet : ¬(candidate % 60).toNat ≤ (second % 60).toNat :=
        of_decide_eq_false (Bool.not_eq_eq_eq_not.mp (early _ isEarly))
      omega
    · have sorted := ordered.sorted
      rw [same, List.pairwise_append] at sorted
      rcases List.mem_cons.mp isLate with isValue | isAfter
      · omega
      · have above := (List.pairwise_cons.mp sorted.2.1).1 _ isAfter
        omega

theorem attempt_none {candidate : ℤ}
    (missed : matchesCronMinute (getCronTime offset candidate) cron = true →
      (cron.seconds.find? fun value =>
        decide ((getCronTime offset candidate).seconds ≤ value)) = none)
    {second : ℤ} (starts : candidate ≤ second)
    (ends : second < candidate - candidate % 60 + 60) : ¬cron.Fires offset second := by
  intro fires
  rw [fires_iff_of_same_minute _ candidate (by omega)] at fires
  have late : ¬decide ((candidate % 60).toNat ≤ (second % 60).toNat) = true :=
    List.find?_eq_none.mp (missed fires.1) _ fires.2
  rw [decide_eq_true_eq] at late
  omega

theorem searchCron_spec (ordered : cron.Ordered) (attempts : ℕ) (candidate : ℤ)
    (future : now < 1000 * candidate) :
    match searchCron cron offset now attempts candidate with
    | some next =>
        cron.Fires offset next ∧ candidate ≤ next ∧
          next < candidate - candidate % 60 + 60 * attempts ∧
          ∀ second, candidate ≤ second → second < next → ¬cron.Fires offset second
    | none =>
        ∀ second, candidate ≤ second → second < candidate - candidate % 60 + 60 * attempts →
          ¬cron.Fires offset second := by
  induction attempts generalizing candidate with
  | zero =>
      simp only [searchCron]
      intro second starts ends
      omega
  | succ attempts ih =>
      rw [searchCron]
      by_cases isFound : ∃ value, matchesCronMinute (getCronTime offset candidate) cron = true ∧
          (cron.seconds.find? fun value =>
            decide ((getCronTime offset candidate).seconds ≤ value)) = some value
      · rcases isFound with ⟨value, isMatch, found⟩
        rcases attempt_some ordered isMatch found with ⟨fires, late, small, first⟩
        have isFuture : now < 1000 * (candidate - candidate % 60 + value) := by omega
        simp only [isMatch, found, if_true, Option.bind_some, if_pos isFuture]
        exact ⟨fires, by omega, by push_cast; omega, first⟩
      · have missed : matchesCronMinute (getCronTime offset candidate) cron = true →
            (cron.seconds.find? fun value =>
              decide ((getCronTime offset candidate).seconds ≤ value)) = none := by
          intro isMatch
          exact Option.eq_none_iff_forall_ne_some.mpr fun value found =>
            isFound ⟨value, isMatch, found⟩
        have nothing : (if matchesCronMinute (getCronTime offset candidate) cron = true then
            (cron.seconds.find? fun value =>
                decide ((getCronTime offset candidate).seconds ≤ value)).bind fun second =>
              if now < 1000 * (candidate - candidate % 60 + (second : ℤ)) then
                some (candidate - candidate % 60 + (second : ℤ)) else none
            else none) = none := by
          split_ifs with isMatch
          · rw [missed isMatch, Option.bind_none]
          · rfl
        simp only [nothing]
        have rest := ih (candidate - candidate % 60 + 60) (by omega)
        have whole : (candidate - candidate % 60 + 60) % 60 = 0 := by omega
        have here {second : ℤ} (starts : candidate ≤ second)
            (ends : second < candidate - candidate % 60 + 60) : ¬cron.Fires offset second :=
          attempt_none missed starts ends
        split at rest
        · rcases rest with ⟨fires, starts, ends, first⟩
          refine ⟨fires, by omega, by push_cast; omega, ?_⟩
          intro second early late
          by_cases same : second < candidate - candidate % 60 + 60
          · exact here early same
          · exact first second (by omega) late
        · intro second early late
          by_cases same : second < candidate - candidate % 60 + 60
          · exact here early same
          · exact rest second (by omega) (by push_cast at late; omega)

end Search

end ServerFoundation.Worker
