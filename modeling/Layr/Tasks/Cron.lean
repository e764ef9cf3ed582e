import Layr.Go.Strconv
import Layr.Go.Strings
import Layr.Go.Time

/-!
# Cron schedules (`tasks/cron.go`)

`ParseCron` compiles an expression of five fields into sets of numbers, and `Next` looks for the
first minute behind a start whose fields match: it moves a candidate to the start of the next
month, day, hour or minute until nothing is left to object to. Fields of a candidate are those
its location's clocks show.
-/

namespace Layr.Tasks

open Go

/-- `CronSchedule`; the maps from numbers to `true` are lists. -/
structure CronSchedule where
  originalExpression : String
  minutes : List ℤ
  hours : List ℤ
  daysOfMonth : List ℤ
  months : List ℤ
  daysOfWeek : List ℤ
  dayOfMonthWildcard : Bool
  dayOfWeekWildcard : Bool
deriving DecidableEq, Repr

/-! ## Parsing -/

/-- `cronAliases`. -/
def cronAliases : List (String × String) :=
  [("@hourly", "0 * * * *"), ("@daily", "0 0 * * *"), ("@midnight", "0 0 * * *"),
   ("@weekly", "0 0 * * 0"), ("@monthly", "0 0 1 * *"), ("@yearly", "0 0 1 1 *"),
   ("@annually", "0 0 1 1 *")]

/-- `strconv.Atoi`. -/
def atoi (text : String) : Option ℤ := Strconv.parseInt text.toList

/-- The numbers of the loop over a range, on 64-bit integers. A step that overflows goes on below
the range; no range of a field has more than 128 turns. -/
def cronItems (last step : ℤ) : ℕ → ℤ → List ℤ
  | 0, _ => []
  | fuel + 1, item =>
    if item ≤ last then item :: cronItems last step fuel ((item + step).bmod (2 ^ 64)) else []

/-- `strconv.Itoa` inside messages. -/
def itoa (n : ℤ) : String := String.ofList (Strconv.formatInt n)

/-- The step behind a slash, and what stands before it. -/
def parseCronStep (part : String) : Except String (String × ℤ) :=
  if Strings.containsRune part '/' then
    match Strings.split '/' part with
    | [rangeSegment, stepText] =>
      match atoi stepText with
      | some step =>
        if step ≤ 0 then .error ("invalid step value '" ++ stepText ++ "'")
        else .ok (rangeSegment, step)
      | none => .error ("invalid step value '" ++ stepText ++ "'")
    | _ => .error ("invalid step syntax in '" ++ part ++ "'")
  else .ok (part, 1)

/-- The bounds of a range, a star or a number. -/
def parseCronRange (minLimit maxLimit : ℤ) (rangeSegment : String) : Except String (ℤ × ℤ) :=
  if rangeSegment = "*" then .ok (minLimit, maxLimit)
  else if Strings.containsRune rangeSegment '-' then
    match Strings.split '-' rangeSegment with
    | [startText, endText] =>
      match atoi startText, atoi endText with
      | some rangeStart, some rangeEnd =>
        if rangeStart > rangeEnd ∨ rangeStart < minLimit ∨ rangeEnd > maxLimit then
          .error ("invalid range '" ++ rangeSegment ++ "'")
        else .ok (rangeStart, rangeEnd)
      | _, _ => .error ("invalid range '" ++ rangeSegment ++ "'")
    | _ => .error ("invalid range syntax in '" ++ rangeSegment ++ "'")
  else
    match atoi rangeSegment with
    | some number =>
      if number < minLimit ∨ number > maxLimit then
        .error ("invalid value '" ++ rangeSegment ++ "'")
      else .ok (number, number)
    | none => .error ("invalid value '" ++ rangeSegment ++ "'")

/-- One of the parts of a field between commas. -/
def parseCronPart (field : String) (minLimit maxLimit : ℤ) (part : String) :
    Except String (List ℤ) :=
  let part := Strings.trimSpace part
  if part = "" then .error ("empty part in field '" ++ field ++ "'")
  else do
    let (rangeSegment, step) ← parseCronStep part
    let (first, last) ← parseCronRange minLimit maxLimit rangeSegment
    .ok (cronItems last step 128 first)

/-- `parseCronField`. -/
def parseCronField (field : String) (minLimit maxLimit : ℤ) : Except String (List ℤ) := do
  let parts ← (Strings.split ',' field).mapM (parseCronPart field minLimit maxLimit)
  .ok parts.flatten

/-- `parseDayOfWeekField`: 7 is Sunday, as 0 is. -/
def parseDayOfWeekField (field : String) : Except String (List ℤ) := do
  let days ← parseCronField field 0 7
  .ok (days.map fun day => if day = 7 then 0 else day)

/-- An error with the field it is about. -/
def inField (name : String) (result : Except String (List ℤ)) : Except String (List ℤ) :=
  result.mapError fun message => "invalid " ++ name ++ " field: " ++ message

/-- `ParseCron`. -/
def parseCron (expression : String) : Except String CronSchedule :=
  let trimmed := Strings.trimSpace expression
  if trimmed = "" then .error "empty cron expression"
  else
    let trimmed := (cronAliases.lookup (Strings.toLower trimmed)).getD trimmed
    match Strings.fields trimmed with
    | [minuteField, hourField, dayField, monthField, weekdayField] => do
      let minutes ← inField "minute" (parseCronField minuteField 0 59)
      let hours ← inField "hour" (parseCronField hourField 0 23)
      let daysOfMonth ← inField "day-of-month" (parseCronField dayField 1 31)
      let months ← inField "month" (parseCronField monthField 1 12)
      let daysOfWeek ← inField "day-of-week" (parseDayOfWeekField weekdayField)
      .ok {
        originalExpression := expression
        minutes := minutes
        hours := hours
        daysOfMonth := daysOfMonth
        months := months
        daysOfWeek := daysOfWeek
        dayOfMonthWildcard := dayField = "*"
        dayOfWeekWildcard := weekdayField = "*" }
    | fields =>
      .error ("invalid cron expression: expected 5 fields, got " ++ itoa fields.length)

/-! ## The next occurrence -/

namespace CronSchedule

variable (schedule : CronSchedule) (location : Time.Location)

/-- `dayMatch`: when both kinds of days are given, either will do. -/
def matchesDay (fields : Time.Fields) : Bool :=
  let dayOfMonth := schedule.daysOfMonth.contains fields.date.day
  let dayOfWeek := schedule.daysOfWeek.contains fields.weekday
  match schedule.dayOfMonthWildcard, schedule.dayOfWeekWildcard with
  | true, true => true
  | false, false => dayOfMonth || dayOfWeek
  | false, true => dayOfMonth
  | true, false => dayOfWeek

/-- Where the loop goes from a candidate that does not match; nothing for one that does. -/
def skip (candidate : ℤ) : Option ℤ :=
  let fields := location.fields candidate
  let date := fields.date
  if !schedule.months.contains date.month then
    some (location.date date.year (date.month + 1) 1 0 0 0)
  else if !schedule.matchesDay fields then
    some (location.date date.year date.month (date.day + 1) 0 0 0)
  else if !schedule.hours.contains fields.hour then
    some (location.date date.year date.month date.day (fields.hour + 1) 0 0)
  else if !schedule.minutes.contains fields.minute then some (candidate + Time.minute)
  else none

/-- The loop of `Next`: nothing as long as it runs, and the zero time when it gives up. -/
def search (limit : ℤ) : ℕ → ℤ → Option ℤ
  | 0, _ => none
  | fuel + 1, candidate =>
    if candidate < limit then
      match schedule.skip location candidate with
      | some candidate => search limit fuel candidate
      | none => some candidate
    else some Time.zero

/-- The first candidate behind a start. -/
def firstCandidate (start : ℤ) : ℤ := Time.truncate start Time.minute + Time.minute

/-- `Next`, if its loop ends within a number of turns. -/
def next (fuel : ℕ) (start : ℤ) : Option ℤ :=
  schedule.search location (location.addYears (firstCandidate start) 5) fuel
    (firstCandidate start)

/-! ## Candidates move forward where the offset is fixed -/

variable {schedule location}

theorem lt_firstCandidate (start : ℤ) : start < firstCandidate start := by
  have hmod : start % Time.minute < Time.minute := Int.emod_lt_of_pos _ (by decide)
  unfold firstCandidate Time.truncate
  omega

theorem lt_skip {candidate candidate' : ℤ} (hfixed : location.changes = [])
    (h : schedule.skip location candidate = some candidate') : candidate < candidate' := by
  unfold skip at h
  dsimp only at h
  split at h
  · cases h
    exact Time.lt_date_of_fixed hfixed (Time.lt_next_month _)
  split at h
  · cases h
    exact Time.lt_date_of_fixed hfixed (Time.lt_next_day _)
  split at h
  · cases h
    exact Time.lt_date_of_fixed hfixed (Time.lt_next_hour _)
  split at h
  · cases h
    have hminute : 0 < Time.minute := by decide
    omega
  · cases h

end CronSchedule

end Layr.Tasks
