import Mathlib.Order.Monotone.Basic
import Mathlib.Tactic.Ring

/-!
# `time`

Instants in nanoseconds since the Unix epoch, the calendar, and locations as lists of changes of
their offset from UTC. `Date` finds the instant of a local time as Go does: it looks the offset up
as if the local time were UTC, and once more if that offset is not in force at the result.
-/

namespace Layr.Go
namespace Time

def second : ℤ := 1000000000

def minute : ℤ := 60 * second

/-! ## The calendar -/

/-- A day of the calendar, with months and days counted from one. -/
structure Civil where
  year : ℤ
  month : ℤ
  day : ℤ
deriving DecidableEq, Repr

def isLeap (year : ℤ) : Bool := year % 4 = 0 && (year % 100 ≠ 0 || year % 400 = 0)

/-- The days of a common year in front of a month. -/
def daysBefore (month : ℤ) : ℤ :=
  [0, 0, 31, 59, 90, 120, 151, 181, 212, 243, 273, 304, 334, 365].getD month.toNat 0

/-- The days in front of a month, with the leap day behind February. -/
def daysBeforeMonth (leap : Bool) (month : ℤ) : ℤ :=
  daysBefore month + if leap && decide (2 < month) then 1 else 0

/-- The days in front of a year, counted from the first day of the year 1. -/
def daysBeforeYear (year : ℤ) : ℤ :=
  365 * (year - 1) + (year - 1) / 4 - (year - 1) / 100 + (year - 1) / 400

/-- The number of a day, counted from the first day of the year 1. Days behind the end of the
month run on into the next. -/
def dayNumber (year month day : ℤ) : ℤ :=
  daysBeforeYear year + daysBeforeMonth (isLeap year) month + (day - 1)

/-- The year of a day, and the day in it, counted from zero: cycles of 400, 100 and 4 years are
cut off, where the last day of a longer cycle belongs to the last shorter one. -/
def yearDay (days : ℤ) : ℤ × ℤ :=
  let n400 := days / 146097
  let d := days % 146097
  let n100 := d / 36524 - d / 36524 / 4
  let d := d - 36524 * n100
  let n4 := d / 1461
  let d := d - 1461 * n4
  let n1 := d / 365 - d / 365 / 4
  (400 * n400 + 100 * n100 + 4 * n4 + n1 + 1, d - 365 * n1)

/-- The month and the day of a day in the year. The guess of 31 days for each month is at most one
month too low. -/
def monthDay (leap : Bool) (day : ℤ) : ℤ × ℤ :=
  if leap && decide (day = 59) then (2, 29)
  else
    let day := if leap && decide (59 < day) then day - 1 else day
    let month := day / 31 + 1
    if daysBefore (month + 1) ≤ day then (month + 1, day - daysBefore (month + 1) + 1)
    else (month, day - daysBefore month + 1)

/-- The date of a day number. -/
def civil (days : ℤ) : Civil :=
  let (year, day) := yearDay days
  let (month, dayOfMonth) := monthDay (isLeap year) day
  ⟨year, month, dayOfMonth⟩

/-- A year by its place in the cycles. -/
theorem daysBeforeYear_cycles {n c q y : ℤ} (hc : 0 ≤ c ∧ c ≤ 3) (hq : 0 ≤ q ∧ q ≤ 24)
    (hy : 0 ≤ y ∧ y ≤ 3) :
    daysBeforeYear (400 * n + 100 * c + 4 * q + y + 1) =
      146097 * n + 36524 * c + 1461 * q + 365 * y := by
  have h4 : (400 * n + 100 * c + 4 * q + y) / 4 = 100 * n + 25 * c + q := by omega
  have h100 : (400 * n + 100 * c + 4 * q + y) / 100 = 4 * n + c := by omega
  have h400 : (400 * n + 100 * c + 4 * q + y) / 400 = n := by omega
  rw [daysBeforeYear, add_sub_cancel_right, h4, h100, h400]
  ring

/-- The cycles that `yearDay` cuts off, and the day that is left. -/
theorem yearDay_cycles (days : ℤ) : ∃ n c q y r : ℤ,
    yearDay days = (400 * n + 100 * c + 4 * q + y + 1, r) ∧
      days = 146097 * n + 36524 * c + 1461 * q + 365 * y + r ∧
      (0 ≤ c ∧ c ≤ 3) ∧ (0 ≤ q ∧ q ≤ 24) ∧ (0 ≤ y ∧ y ≤ 3) ∧
      0 ≤ r ∧ (r < 365 ∨ r = 365 ∧ y = 3 ∧ (q ≠ 24 ∨ c = 3)) := by
  obtain ⟨d, hd⟩ : ∃ d, d = days % 146097 := ⟨_, rfl⟩
  obtain ⟨c, hc⟩ : ∃ c, c = d / 36524 - d / 36524 / 4 := ⟨_, rfl⟩
  obtain ⟨d₁, hd₁⟩ : ∃ d₁, d₁ = d - 36524 * c := ⟨_, rfl⟩
  obtain ⟨q, hq⟩ : ∃ q, q = d₁ / 1461 := ⟨_, rfl⟩
  obtain ⟨d₂, hd₂⟩ : ∃ d₂, d₂ = d₁ - 1461 * q := ⟨_, rfl⟩
  obtain ⟨y, hy⟩ : ∃ y, y = d₂ / 365 - d₂ / 365 / 4 := ⟨_, rfl⟩
  have hc' : (0 ≤ c ∧ c ≤ 3) ∧ 0 ≤ d₁ ∧ (d₁ < 36524 ∨ d₁ = 36524 ∧ c = 3) := by omega
  have hq' : (0 ≤ q ∧ q ≤ 24) ∧ 0 ≤ d₂ ∧ d₂ < 1461 := by omega
  have hy' : (0 ≤ y ∧ y ≤ 3) ∧ 0 ≤ d₂ - 365 * y ∧
      (d₂ - 365 * y < 365 ∨ d₂ - 365 * y = 365 ∧ y = 3 ∧ d₂ = 1460) := by omega
  refine ⟨days / 146097, c, q, y, d₂ - 365 * y, ?_, ?_, hc'.1, hq'.1, hy'.1, hy'.2.1, ?_⟩
  · simp only [yearDay, ← hd, ← hc, ← hd₁, ← hq, ← hd₂, ← hy]
  · omega
  · omega

theorem yearDay_spec (days : ℤ) :
    daysBeforeYear (yearDay days).1 + (yearDay days).2 = days ∧ 0 ≤ (yearDay days).2 ∧
      (yearDay days).2 < 365 + if isLeap (yearDay days).1 then 1 else 0 := by
  obtain ⟨n, c, q, y, r, heq, hdays, hc, hq, hy, hpos, hlt⟩ := yearDay_cycles days
  rw [heq]
  refine ⟨?_, hpos, ?_⟩
  · rw [daysBeforeYear_cycles hc hq hy]
    omega
  · split
    · omega
    next hleap =>
      simp only [isLeap, Bool.and_eq_true, Bool.or_eq_true, decide_eq_true_eq] at hleap
      omega

/-- The days of a year, with and without a leap day. -/
theorem monthDay_spec {leap : Bool} {day : ℤ} (hpos : 0 ≤ day)
    (hlt : day < 365 + if leap then 1 else 0) :
    daysBeforeMonth leap (monthDay leap day).1 + ((monthDay leap day).2 - 1) = day ∧
      1 ≤ (monthDay leap day).1 ∧ (monthDay leap day).1 ≤ 12 ∧ 1 ≤ (monthDay leap day).2 ∧
      day < daysBeforeMonth leap ((monthDay leap day).1 + 1) := by
  have hall : ∀ leap : Bool, ∀ n : Fin 366, (n : ℤ) < 365 + (if leap then 1 else 0) →
      daysBeforeMonth leap (monthDay leap n).1 + ((monthDay leap n).2 - 1) = n ∧
        1 ≤ (monthDay leap n).1 ∧ (monthDay leap n).1 ≤ 12 ∧ 1 ≤ (monthDay leap n).2 ∧
        (n : ℤ) < daysBeforeMonth leap ((monthDay leap n).1 + 1) := by
    decide +kernel
  have hle : day.toNat < 366 := by
    split at hlt <;> omega
  have hday : ((⟨day.toNat, hle⟩ : Fin 366) : ℤ) = day := by
    show (day.toNat : ℤ) = day
    omega
  have := hall leap ⟨day.toNat, hle⟩
  rw [hday] at this
  exact this hlt

/-- The number of a date whose month may lie outside the year. -/
def dateNumber (year month day : ℤ) : ℤ :=
  dayNumber (year + (month - 1) / 12) ((month - 1) % 12 + 1) day

theorem daysBeforeYear_succ (year : ℤ) :
    daysBeforeYear (year + 1) = daysBeforeYear year + 365 + if isLeap year then 1 else 0 := by
  have hleap : isLeap year ↔ year % 4 = 0 ∧ (year % 100 ≠ 0 ∨ year % 400 = 0) := by
    simp [isLeap]
  simp only [daysBeforeYear]
  split
  next h =>
    rw [hleap] at h
    omega
  next h =>
    rw [hleap] at h
    omega

theorem civil_spec (days : ℤ) :
    dayNumber (civil days).year (civil days).month (civil days).day = days ∧
      1 ≤ (civil days).month ∧ (civil days).month ≤ 12 := by
  obtain ⟨hdays, hpos, hlt⟩ := yearDay_spec days
  obtain ⟨hday, hlow, hhigh, -, -⟩ := monthDay_spec hpos hlt
  refine ⟨?_, hlow, hhigh⟩
  show daysBeforeYear (yearDay days).1 +
    daysBeforeMonth (isLeap (yearDay days).1)
      (monthDay (isLeap (yearDay days).1) (yearDay days).2).1 +
    ((monthDay (isLeap (yearDay days).1) (yearDay days).2).2 - 1) = days
  omega

/-- A date is the date of its day number. -/
theorem dateNumber_civil (days : ℤ) :
    dateNumber (civil days).year (civil days).month (civil days).day = days := by
  obtain ⟨hdays, hlow, hhigh⟩ := civil_spec days
  have hyear : ((civil days).month - 1) / 12 = 0 := by omega
  have hmonth : ((civil days).month - 1) % 12 + 1 = (civil days).month := by omega
  rw [dateNumber, hyear, hmonth, add_zero, hdays]

/-- The first day of a month, or of the next year. -/
theorem dateNumber_first (year : ℤ) {month : ℤ} (hlow : 1 ≤ month) (hhigh : month ≤ 13) :
    dateNumber year month 1 = daysBeforeYear year + daysBeforeMonth (isLeap year) month := by
  rw [dateNumber, dayNumber, sub_self, add_zero]
  by_cases hends : month = 13
  · have hyear : ∀ leap : Bool, daysBeforeMonth leap 1 = 0 ∧
        daysBeforeMonth leap 13 = 365 + if leap then 1 else 0 := by decide
    rw [hends, (hyear _).2, show ((13 : ℤ) - 1) / 12 = 1 from rfl, daysBeforeYear_succ,
      show ((13 : ℤ) - 1) % 12 + 1 = 1 from rfl, (hyear _).1]
    omega
  · rw [show (month - 1) / 12 = 0 by omega, show (month - 1) % 12 + 1 = month by omega, add_zero]

/-- A day lies in its month. -/
theorem month_spec (days : ℤ) :
    dateNumber (civil days).year (civil days).month 1 ≤ days ∧
      days < dateNumber (civil days).year ((civil days).month + 1) 1 := by
  obtain ⟨hdays, hpos, hlt⟩ := yearDay_spec days
  obtain ⟨hday, hlow, hhigh, hfirst, hnext⟩ := monthDay_spec hpos hlt
  change dateNumber (yearDay days).1 (monthDay (isLeap (yearDay days).1) (yearDay days).2).1
      1 ≤ days ∧
    days < dateNumber (yearDay days).1
      ((monthDay (isLeap (yearDay days).1) (yearDay days).2).1 + 1) 1
  rw [dateNumber_first _ hlow (by omega), dateNumber_first _ (by omega) (by omega)]
  omega

theorem dateNumber_months (year month day : ℤ) :
    dateNumber year month day = dateNumber 0 (12 * year + month) day := by
  rw [dateNumber, dateNumber,
    show 0 + (12 * year + month - 1) / 12 = year + (month - 1) / 12 by omega,
    show (12 * year + month - 1) % 12 = (month - 1) % 12 by omega]

theorem first_lt_first {month month' : ℤ} :
    dateNumber 0 month 1 < dateNumber 0 month' 1 ↔ month < month' := by
  refine (strictMono_int_of_lt_succ (f := fun month => dateNumber 0 month 1) ?_).lt_iff_lt
  intro month
  have hlength : ∀ leap : Bool, ∀ m : Fin 12,
      daysBeforeMonth leap ((m : ℕ) + 1) < daysBeforeMonth leap ((m : ℕ) + 1 + 1) := by decide
  obtain ⟨n, hn⟩ := Int.eq_ofNat_of_zero_le (by omega : 0 ≤ (month - 1) % 12)
  have hsplit : month = 12 * ((month - 1) / 12) + (n + 1) := by omega
  rw [hsplit, add_assoc, ← dateNumber_months, ← dateNumber_months,
    dateNumber_first _ (by omega) (by omega), dateNumber_first _ (by omega) (by omega)]
  exact Int.add_lt_add_left (hlength _ ⟨n, by omega⟩) _

/-- The days up to the next month have the same month. -/
theorem month_eq_of_lt {days days' : ℤ} (hle : days ≤ days')
    (hlt : days' < dateNumber (civil days).year ((civil days).month + 1) 1) :
    (civil days').month = (civil days).month := by
  obtain ⟨-, hlow, hhigh⟩ := civil_spec days
  obtain ⟨-, hlow', hhigh'⟩ := civil_spec days'
  obtain ⟨hfirst, -⟩ := month_spec days
  obtain ⟨hfirst', hnext'⟩ := month_spec days'
  rw [dateNumber_months] at hlt hfirst hfirst' hnext'
  have hless := first_lt_first.mp (hfirst'.trans_lt hlt)
  have hless' := first_lt_first.mp ((hfirst.trans hle).trans_lt hnext')
  omega

/-! ## Locations -/

/-- A location: its first offset from UTC in seconds, and the changes of the offset at seconds
since the epoch, in their order. -/
structure Location where
  first : ℤ
  changes : List (ℤ × ℤ)
deriving DecidableEq, Repr

/-- `time.UTC`. -/
def Location.utc : Location := ⟨0, []⟩

/-- An offset and when it is in force. -/
structure Zone where
  offset : ℤ
  start : Option ℤ
  stop : Option ℤ
deriving DecidableEq, Repr

/-- The zone that is in force at a second. -/
def lookupFrom (offset : ℤ) (start : Option ℤ) : List (ℤ × ℤ) → ℤ → Zone
  | [], _ => ⟨offset, start, none⟩
  | (change, next) :: changes, seconds =>
    if seconds < change then ⟨offset, start, some change⟩
    else lookupFrom next (some change) changes seconds

/-- `lookup`. -/
def Location.lookup (location : Location) (seconds : ℤ) : Zone :=
  lookupFrom location.first none location.changes seconds

/-- The zone is in force at a second. -/
def Zone.contains (zone : Zone) (seconds : ℤ) : Bool :=
  zone.start.all (fun start => decide (start ≤ seconds)) &&
    zone.stop.all fun stop => decide (seconds < stop)

/-- The seconds that the clocks of a location show, counted like those of UTC. -/
def Location.localSeconds (location : Location) (t : ℤ) : ℤ :=
  t / second + (location.lookup (t / second)).offset

/-- The number of the day 1970-01-01. -/
def epochDay : ℤ := 719162

/-- A date and a time of day. -/
structure Fields where
  date : Civil
  weekday : ℤ
  hour : ℤ
  minute : ℤ
  second : ℤ
deriving DecidableEq, Repr

/-- The fields of a local time. The first day of the year 1 is a Monday, and Sundays count zero. -/
def fieldsOf (seconds : ℤ) : Fields where
  date := civil (seconds / 86400 + epochDay)
  weekday := (seconds / 86400 + epochDay + 1) % 7
  hour := seconds % 86400 / 3600
  minute := seconds % 3600 / 60
  second := seconds % 60

/-- `t.In(location)`, by its fields. -/
def Location.fields (location : Location) (t : ℤ) : Fields := fieldsOf (location.localSeconds t)

/-- A local time as if it were UTC; all of its parts may run over. -/
def dateSeconds (year month day hour minute second : ℤ) : ℤ :=
  (dateNumber year month day - epochDay) * 86400 + hour * 3600 + minute * 60 + second

/-- `time.Date` without nanoseconds. -/
def Location.date (location : Location) (year month day hour minute seconds : ℤ) : ℤ :=
  let unix := dateSeconds year month day hour minute seconds
  let zone := location.lookup unix
  if zone.offset ≠ 0 then
    let utc := unix - zone.offset
    let offset := if zone.contains utc then zone.offset else (location.lookup utc).offset
    (unix - offset) * second
  else unix * second

/-- The offset with which `time.Date` reads a local time. -/
def Location.dateOffset (location : Location) (unix : ℤ) : ℤ :=
  let zone := location.lookup unix
  if zone.offset ≠ 0 then
    if zone.contains (unix - zone.offset) then zone.offset
    else (location.lookup (unix - zone.offset)).offset
  else 0

theorem date_eq (location : Location) (year month day hour minute seconds : ℤ) :
    location.date year month day hour minute seconds =
      (dateSeconds year month day hour minute seconds -
        location.dateOffset (dateSeconds year month day hour minute seconds)) * second := by
  unfold Location.date Location.dateOffset
  dsimp only
  split_ifs
  · rfl
  · rfl
  · rw [sub_zero]

/-- `t.AddDate(years, 0, 0)` of a time of whole seconds. -/
def Location.addYears (location : Location) (t years : ℤ) : ℤ :=
  let fields := location.fields t
  location.date (fields.date.year + years) fields.date.month fields.date.day fields.hour
    fields.minute fields.second

/-- `t.Sub(u)`, which stops at the bounds of a duration. -/
def sub (t u : ℤ) : ℤ := max (-2 ^ 63) (min (t - u) (2 ^ 63 - 1))

/-- `-d` of a duration: the least one has no positive counterpart and stays. -/
def neg (d : ℤ) : ℤ := if d = -2 ^ 63 then d else -d

/-- `t.Truncate(unit)`. -/
def truncate (t unit : ℤ) : ℤ := t - t % unit

/-- `time.Time{}`, the start of the year 1. -/
def zero : ℤ := -epochDay * 86400 * second

theorem lt_next_hour (seconds : ℤ) :
    seconds < dateSeconds (fieldsOf seconds).date.year (fieldsOf seconds).date.month
      (fieldsOf seconds).date.day ((fieldsOf seconds).hour + 1) 0 0 := by
  have hdate := dateNumber_civil (seconds / 86400 + epochDay)
  simp only [dateSeconds, fieldsOf]
  rw [hdate]
  omega

theorem lt_next_day (seconds : ℤ) :
    seconds < dateSeconds (fieldsOf seconds).date.year (fieldsOf seconds).date.month
      ((fieldsOf seconds).date.day + 1) 0 0 0 := by
  have hdate := dateNumber_civil (seconds / 86400 + epochDay)
  simp only [dateSeconds, fieldsOf]
  rw [dateNumber, dayNumber] at hdate ⊢
  omega

theorem lt_next_month (seconds : ℤ) :
    seconds < dateSeconds (fieldsOf seconds).date.year ((fieldsOf seconds).date.month + 1) 1
      0 0 0 := by
  have hdate := (month_spec (seconds / 86400 + epochDay)).2
  simp only [dateSeconds, fieldsOf]
  omega

/-! ## Locations with one offset -/

section

variable {location : Location} (h : location.changes = [])

include h

theorem lookup_of_fixed (seconds : ℤ) : location.lookup seconds = ⟨location.first, none, none⟩ := by
  rw [Location.lookup, h, lookupFrom]

theorem date_of_fixed (year month day hour minute seconds : ℤ) :
    location.date year month day hour minute seconds =
      (dateSeconds year month day hour minute seconds - location.first) * second := by
  rw [Location.date]
  simp only [lookup_of_fixed h]
  by_cases hzero : location.first = 0
  · rw [if_neg (by simpa using hzero), hzero, sub_zero]
  · rw [if_pos hzero]
    rfl

theorem localSeconds_of_fixed (t : ℤ) : location.localSeconds t = t / second + location.first := by
  rw [Location.localSeconds, lookup_of_fixed h]

theorem localSeconds_mono {t t' : ℤ} (hle : t ≤ t') : location.localSeconds t ≤
    location.localSeconds t' := by
  rw [localSeconds_of_fixed h, localSeconds_of_fixed h]
  exact Int.add_le_add_right (Int.ediv_le_ediv (by decide) hle) _

/-- `time.Date` finds the instant at which the clocks show the local time. -/
theorem localSeconds_date (year month day hour minute seconds : ℤ) :
    location.localSeconds (location.date year month day hour minute seconds) =
      dateSeconds year month day hour minute seconds := by
  rw [localSeconds_of_fixed h, date_of_fixed h, Int.mul_ediv_cancel _ (by decide), sub_add_cancel]

/-- A later local time is a later instant. -/
theorem lt_date_of_fixed {t : ℤ} {year month day hour minute seconds : ℤ}
    (hlater : location.localSeconds t < dateSeconds year month day hour minute seconds) :
    t < location.date year month day hour minute seconds := by
  by_contra hle
  have hshown := localSeconds_mono h (not_lt.mp hle)
  rw [localSeconds_date h] at hshown
  omega

end

end Time
end Layr.Go
