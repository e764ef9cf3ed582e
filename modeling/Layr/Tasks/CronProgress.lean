import Layr.Lib.Runs
import Layr.Tasks.Cron

/-!
# Progress of `Next` (`tasks/cron.go`)

A turn of the loop that skips a month, a day or an hour asks `time.Date` for a local time that lies
ahead on the clock. Where clocks are put forward, a time in the gap may come out before the gap;
where they are put back, a time that is shown twice may be read as the first of the two. Either way
the candidate may stay where it is or go back.
-/

namespace Layr.Tasks.CronSchedule

open Go

variable (schedule : CronSchedule) (location : Time.Location)

/-- The local time that a turn asks `time.Date` for, if it asks for one. -/
def asked (candidate : ℤ) : Option ℤ :=
  let fields := location.fields candidate
  let date := fields.date
  if !schedule.months.contains date.month then
    some (Time.dateSeconds date.year (date.month + 1) 1 0 0 0)
  else if !schedule.matchesDay fields then
    some (Time.dateSeconds date.year date.month (date.day + 1) 0 0 0)
  else if !schedule.hours.contains fields.hour then
    some (Time.dateSeconds date.year date.month date.day (fields.hour + 1) 0 0)
  else none

/-- The bound of the loop. -/
def limit (start : ℤ) : ℤ := location.addYears (firstCandidate start) 5

/-- A turn of the loop that does not return. -/
def turn (bound : ℤ) (candidate : ℤ) (_ : Unit) : Option ℤ :=
  if candidate < bound then schedule.skip location candidate else none

/-- The candidates of the loop. -/
def Reaches (start candidate : ℤ) : Prop :=
  Runs.Run (schedule.turn location (limit location start)) (fun _ _ => True)
    (firstCandidate start) candidate

/-- The loop ends, and each turn that does not return moves the candidate forward. -/
structure Progresses (start : ℤ) : Prop where
  ends : ∃ fuel, (schedule.next location fuel start).isSome
  advances : ∀ candidate candidate', schedule.Reaches location start candidate →
    schedule.turn location (limit location start) candidate () = some candidate' →
    candidate < candidate'

variable {schedule location}

/-! ## One turn -/

variable {candidate candidate' : ℤ}

/-- A turn goes to the instant of what it asks for; where it asks for nothing, it goes a minute on
or returns. -/
theorem skip_eq (schedule : CronSchedule) (location : Time.Location) (candidate : ℤ) :
    schedule.skip location candidate =
      (schedule.asked location candidate).elim
        (if schedule.minutes.contains (location.fields candidate).minute then none
          else some (candidate + Time.minute))
        fun unix => some ((unix - location.dateOffset unix) * Time.second) := by
  unfold skip asked
  simp only [Time.date_eq]
  split_ifs <;> simp_all

/-! ## The loop -/

theorem turn_eq_some {bound : ℤ} (h : schedule.turn location bound candidate () = some candidate') :
    candidate < bound ∧ schedule.skip location candidate = some candidate' := by
  unfold turn at h
  split_ifs at h with hbound
  exact ⟨hbound, h⟩

/-- A loop whose turns all move forward ends: the way to the bound gets shorter. -/
theorem search_ends {bound : ℤ}
    (hadvances : ∀ c c', Runs.Run (schedule.turn location bound) (fun _ _ => True) candidate c →
      schedule.turn location bound c () = some c' → c < c') :
    ∃ fuel, (schedule.search location bound fuel candidate).isSome := by
  -- the induction is on the nanoseconds that are left
  induction hleft : (bound - candidate).toNat using Nat.strong_induction_on generalizing candidate
  next left ih =>
  by_cases hbound : candidate < bound
  · rcases hskip : schedule.skip location candidate with _ | candidate'
    · refine ⟨1, ?_⟩
      rw [search, if_pos hbound, hskip]
      rfl
    · have hturn : schedule.turn location bound candidate () = some candidate' := by
        rw [turn, if_pos hbound, hskip]
      have hlt : candidate < candidate' := hadvances _ _ .refl hturn
      have hshorter : (bound - candidate').toNat < left := by omega
      have hrest : ∀ c c',
          Runs.Run (schedule.turn location bound) (fun _ _ => True) candidate' c →
          schedule.turn location bound c () = some c' → c < c' := by
        intro c c' hrun hstep
        refine hadvances c c' ?_ hstep
        clear hstep
        induction hrun with
        | refl => exact .step .refl trivial hturn
        | step _ hallowed hstep ih => exact .step ih hallowed hstep
      obtain ⟨fuel, hends⟩ := ih _ hshorter hrest rfl
      refine ⟨fuel + 1, ?_⟩
      rw [search, if_pos hbound, hskip]
      exact hends
  · refine ⟨1, ?_⟩
    rw [search, if_neg hbound]
    rfl

/-- A candidate that a turn leaves where it is keeps the loop forever. -/
theorem search_eq_none_of_stuck {bound : ℤ} (hbound : candidate < bound)
    (hstuck : schedule.skip location candidate = some candidate) (fuel : ℕ) :
    schedule.search location bound fuel candidate = none := by
  induction fuel with
  | zero => rfl
  | succ fuel ih =>
    rw [search, if_pos hbound, hstuck]
    exact ih

/-! ## A night without end -/

/-- Every night at half past three. -/
def nightly : CronSchedule where
  originalExpression := "30 3 * * *"
  minutes := [30]
  hours := [3]
  daysOfMonth := (List.range 31).map fun day => (day : ℤ) + 1
  months := (List.range 12).map fun month => (month : ℤ) + 1
  daysOfWeek := [0, 1, 2, 3, 4, 5, 6, 0]
  dayOfMonthWildcard := true
  dayOfWeekWildcard := true

/-- New York in the spring of 2024: on March 10 at 07:00 UTC the clocks go from 2 to 3. -/
def newYork : Time.Location := ⟨-18000, [(1710054000, -14400)]⟩

/-- The midnight before. -/
def midnight : ℤ := 1710046800 * Time.second

/-- One o'clock. -/
def oneOClock : ℤ := 1710050400 * Time.second

/-- Newfoundland in the autumn of 2008: one minute past midnight the clocks go back by an hour. -/
def newfoundland : Time.Location := ⟨-9000, [(1225593060, -12600)]⟩

-- half past eleven comes twice that night; the second time, a schedule for another day goes back to
-- the midnight before the change
example : ({ nightly with daysOfMonth := [3], dayOfMonthWildcard := false } : CronSchedule).skip
    newfoundland (1225594800 * Time.second) = some (1225593000 * Time.second) := by
  decide +kernel

end Layr.Tasks.CronSchedule
