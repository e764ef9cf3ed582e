import Layr.Tasks.CronProgress

/-!
# Occurrences of a schedule

Where the offset is fixed, the clocks show every minute once, and the loop of `Next` skips only
minutes that do not match: the rest of a month, a day or an hour that is not listed, or one minute.
So it finds the first that does. Where offsets change, the same holds up to an occurrence before
which they do not.
-/

namespace Layr.Tasks.CronSchedule

open Go

variable (schedule : CronSchedule) (location : Time.Location)

/-- The fields are listed. When both kinds of days are restricted, one of them is enough. -/
def Matches (fields : Time.Fields) : Prop :=
  fields.date.month ∈ schedule.months ∧
    (if schedule.dayOfMonthWildcard = false ∧ schedule.dayOfWeekWildcard = false then
      fields.date.day ∈ schedule.daysOfMonth ∨ fields.weekday ∈ schedule.daysOfWeek
    else
      (schedule.dayOfMonthWildcard = false → fields.date.day ∈ schedule.daysOfMonth) ∧
        (schedule.dayOfWeekWildcard = false → fields.weekday ∈ schedule.daysOfWeek)) ∧
    fields.hour ∈ schedule.hours ∧ fields.minute ∈ schedule.minutes

/-- A minute behind the start whose fields match. -/
structure Occurs (start t : ℤ) : Prop where
  behind : start < t
  whole : t % Time.minute = 0
  listed : schedule.Matches (location.fields t)

/-- The first occurrence behind the start, if one comes within five years of the first candidate,
and the zero time otherwise. -/
def IsNext (start found : ℤ) : Prop :=
  (schedule.Occurs location start found ∧ found < limit location start ∧
      ∀ t, schedule.Occurs location start t → found ≤ t) ∨
    found = Time.zero ∧ ∀ t, schedule.Occurs location start t → limit location start ≤ t

/-- The local minute in which an instant lies. -/
def minuteOf (t : ℤ) : ℤ := location.localSeconds t / 60

/-- The fields of a local minute match. -/
def MinuteMatches (minute : ℤ) : Prop := schedule.Matches (Time.fieldsOf (minute * 60))

variable {schedule location}

/-! ## One turn -/

theorem matchesDay_iff (fields : Time.Fields) :
    schedule.matchesDay fields ↔
      if schedule.dayOfMonthWildcard = false ∧ schedule.dayOfWeekWildcard = false then
        fields.date.day ∈ schedule.daysOfMonth ∨ fields.weekday ∈ schedule.daysOfWeek
      else
        (schedule.dayOfMonthWildcard = false → fields.date.day ∈ schedule.daysOfMonth) ∧
          (schedule.dayOfWeekWildcard = false → fields.weekday ∈ schedule.daysOfWeek) := by
  unfold matchesDay
  cases schedule.dayOfMonthWildcard <;> cases schedule.dayOfWeekWildcard <;> simp

variable {candidate : ℤ}

theorem skip_eq_none_iff :
    schedule.skip location candidate = none ↔ schedule.Matches (location.fields candidate) := by
  unfold skip Matches
  rw [← matchesDay_iff]
  dsimp only
  split_ifs <;> simp_all

/-- The fields of an instant but for its seconds are those of its local minute. -/
theorem minuteMatches_minuteOf (t : ℤ) :
    schedule.MinuteMatches (minuteOf location t) ↔ schedule.Matches (location.fields t) := by
  unfold MinuteMatches minuteOf Time.Location.fields
  generalize location.localSeconds t = seconds
  have hday : seconds / 60 * 60 / 86400 = seconds / 86400 := by omega
  have hhour : seconds / 60 * 60 % 86400 / 3600 = seconds % 86400 / 3600 := by omega
  have hminute : seconds / 60 * 60 % 3600 / 60 = seconds % 3600 / 60 := by omega
  simp only [Matches, Time.fieldsOf, hday, hhour, hminute]

theorem Occurs.firstCandidate_le {start t : ℤ} (h : schedule.Occurs location start t) :
    firstCandidate start ≤ t := by
  have hbehind := h.behind
  have hwhole := h.whole
  simp only [firstCandidate, Time.truncate, Time.minute, Time.second] at *
  omega

theorem firstCandidate_whole (start : ℤ) : firstCandidate start % Time.minute = 0 := by
  simp [firstCandidate, Time.truncate]

section

variable (hfixed : location.changes = [])

include hfixed

theorem minuteOf_mono {t t' : ℤ} (h : t ≤ t') : minuteOf location t ≤ minuteOf location t' :=
  Int.ediv_le_ediv (by decide) (Time.localSeconds_mono hfixed h)

theorem minuteOf_add_minute (t : ℤ) :
    minuteOf location (t + Time.minute) = minuteOf location t + 1 := by
  unfold minuteOf
  rw [Time.localSeconds_of_fixed hfixed, Time.localSeconds_of_fixed hfixed]
  simp only [Time.minute, Time.second]
  omega

/-- Whole minutes lie in minutes of their own. -/
theorem minuteOf_lt {t t' : ℤ} (ht : t % Time.minute = 0) (ht' : t' % Time.minute = 0)
    (h : t < t') : minuteOf location t < minuteOf location t' := by
  have hnext : t + Time.minute ≤ t' := by
    simp only [Time.minute, Time.second] at *
    omega
  have hminute := minuteOf_mono hfixed hnext
  rw [minuteOf_add_minute hfixed] at hminute
  omega

/-- A turn that does not return passes over minutes that do not match. -/
theorem skip_passes {candidate' minute : ℤ} (h : schedule.skip location candidate = some candidate')
    (hlow : minuteOf location candidate ≤ minute) (hhigh : minute < minuteOf location candidate') :
    ¬schedule.MinuteMatches minute := by
  have hdate := Time.dateNumber_civil (location.localSeconds candidate / 86400 + Time.epochDay)
  have hminuteOf := minuteOf_add_minute hfixed candidate
  rintro ⟨hmonth, hday, hhour, hminute⟩
  rw [← matchesDay_iff] at hday
  unfold minuteOf at hlow hhigh hminuteOf
  unfold skip Time.Location.fields at h
  generalize location.localSeconds candidate = seconds at h hlow hdate hminuteOf
  simp only [Time.dateNumber, Time.dayNumber] at hdate
  dsimp only at h
  -- each jump stays within the month, day, hour or minute that does not match
  split at h
  next hnot =>
    cases h
    rw [Time.localSeconds_date hfixed, Time.dateSeconds] at hhigh
    have hsame : (Time.fieldsOf (minute * 60)).date.month = (Time.fieldsOf seconds).date.month :=
      Time.month_eq_of_lt (by omega) (by simp only [Time.fieldsOf] at hhigh; omega)
    rw [hsame] at hmonth
    simp [hmonth] at hnot
  split at h
  next hnot =>
    cases h
    rw [Time.localSeconds_date hfixed, Time.dateSeconds] at hhigh
    have hsame : minute * 60 / 86400 = seconds / 86400 := by
      simp only [Time.fieldsOf, Time.dateNumber, Time.dayNumber] at hhigh
      omega
    simp only [matchesDay, Time.fieldsOf, hsame] at hday hnot
    rw [hday] at hnot
    cases hnot
  split at h
  next hnot =>
    cases h
    rw [Time.localSeconds_date hfixed, Time.dateSeconds] at hhigh
    have hsame : minute * 60 % 86400 / 3600 = seconds % 86400 / 3600 := by
      simp only [Time.fieldsOf, Time.dateNumber, Time.dayNumber] at hhigh
      omega
    simp only [Time.fieldsOf, hsame] at hhour hnot
    simp [hhour] at hnot
  split at h
  next hnot =>
    cases h
    have hsame : minute * 60 % 3600 / 60 = seconds % 3600 / 60 := by omega
    simp only [Time.fieldsOf, hsame] at hminute hnot
    simp [hminute] at hnot
  · cases h

theorem date_whole {year month day hour minute second : ℤ} (hwhole : location.first % 60 = 0)
    (hsecond : second % 60 = 0) :
    location.date year month day hour minute second % Time.minute = 0 := by
  rw [Time.date_of_fixed hfixed, Time.dateSeconds, Time.minute, Time.second]
  omega

/-- Where the offset is of whole minutes, candidates stay whole minutes. -/
theorem skip_whole {candidate' : ℤ} (hwhole : location.first % 60 = 0)
    (hcandidate : candidate % Time.minute = 0)
    (h : schedule.skip location candidate = some candidate') : candidate' % Time.minute = 0 := by
  unfold skip at h
  dsimp only at h
  split_ifs at h
  · exact Option.some.inj h ▸ date_whole hfixed hwhole rfl
  · exact Option.some.inj h ▸ date_whole hfixed hwhole rfl
  · exact Option.some.inj h ▸ date_whole hfixed hwhole rfl
  · rw [← Option.some.inj h, Int.add_emod_right, hcandidate]

/-! ## The loop -/

variable {found : ℤ} {fuel : ℕ}

/-- The loop passes over minutes that do not match, up to one that does or up to the bound. -/
theorem search_spec {bound : ℤ} (h : schedule.search location bound fuel candidate = some found) :
    ∃ last, candidate ≤ last ∧
      (location.first % 60 = 0 → candidate % Time.minute = 0 → last % Time.minute = 0) ∧
      (∀ minute, minuteOf location candidate ≤ minute → minute < minuteOf location last →
        ¬schedule.MinuteMatches minute) ∧
      (found = last ∧ last < bound ∧ schedule.Matches (location.fields last) ∨
        found = Time.zero ∧ bound ≤ last) := by
  induction fuel generalizing candidate with
  | zero => cases h
  | succ fuel ih =>
    rw [search] at h
    split at h
    next hbound =>
      cases hskip : schedule.skip location candidate with
      | none =>
        rw [hskip] at h
        exact ⟨candidate, le_rfl, fun _ h => h, fun _ _ _ => by omega,
          .inl ⟨(Option.some.inj h).symm, hbound, skip_eq_none_iff.mp hskip⟩⟩
      | some candidate' =>
        rw [hskip] at h
        have hlt := lt_skip hfixed hskip
        obtain ⟨last, hle, hlast, hpassed, hend⟩ := ih h
        refine ⟨last, by omega, fun hwhole hcandidate => ?_, fun minute hlow hhigh => ?_, hend⟩
        · exact hlast hwhole (skip_whole hfixed hwhole hcandidate hskip)
        · by_cases hbefore : minute < minuteOf location candidate'
          · exact skip_passes hfixed hskip hlow hbefore
          · exact hpassed minute (not_lt.mp hbefore) hhigh
    next hbound =>
      exact ⟨candidate, le_rfl, fun _ h => h, fun _ _ _ => by omega,
        .inr ⟨(Option.some.inj h).symm, not_lt.mp hbound⟩⟩

/-- With a fixed offset the next occurrence lies behind the start. -/
theorem lt_next {start : ℤ} (h : schedule.next location fuel start = some found)
    (hzero : found ≠ Time.zero) : start < found := by
  have hfirst := lt_firstCandidate start
  obtain ⟨last, hle, -, -, ⟨rfl, -⟩ | ⟨hend, -⟩⟩ := search_spec hfixed h
  · omega
  · exact absurd hend hzero

theorem next_ends (schedule : CronSchedule) (start : ℤ) :
    ∃ fuel, (schedule.next location fuel start).isSome :=
  search_ends fun _ _ _ hturn => lt_skip hfixed (turn_eq_some hturn).2

theorem isNext_of_next {start : ℤ} (hwhole : location.first % 60 = 0)
    (h : schedule.next location fuel start = some found) :
    schedule.IsNext location start found := by
  obtain ⟨last, hle, hlast, hpassed, hend⟩ := search_spec hfixed h
  have hfirst := lt_firstCandidate start
  have hwhole' : last % Time.minute = 0 := hlast hwhole (firstCandidate_whole start)
  -- an occurrence before the last candidate would have been passed over
  have hleast : ∀ t, schedule.Occurs location start t → last ≤ t := by
    intro t ht
    by_contra hlt
    exact hpassed _ (minuteOf_mono hfixed ht.firstCandidate_le)
      (minuteOf_lt hfixed ht.whole hwhole' (not_le.mp hlt))
      ((minuteMatches_minuteOf t).mpr ht.listed)
  rcases hend with ⟨rfl, hlimit, hmatches⟩ | ⟨rfl, hlimit⟩
  · exact .inl ⟨⟨by omega, hwhole', hmatches⟩, hlimit, hleast⟩
  · exact .inr ⟨rfl, fun t ht => hlimit.trans (hleast t ht)⟩

end

/-- `Next` returns, and what it returns is the first occurrence. -/
theorem next_isNext (schedule : CronSchedule) {location : Time.Location}
    (hfixed : location.changes = []) (hwhole : location.first % 60 = 0) (start : ℤ) :
    (∃ fuel, (schedule.next location fuel start).isSome) ∧
      ∀ fuel found, schedule.next location fuel start = some found →
        schedule.IsNext location start found :=
  ⟨next_ends hfixed schedule start, fun _ _ h => isNext_of_next hfixed hwhole h⟩

/-- From the epoch on, in UTC: half past three of that night. -/
theorem nightly_isNext :
    (parseCron "30 3 * * *").toOption = some nightly ∧
      nightly.next ⟨0, []⟩ 40 0 = some (12600 * Time.second) ∧
      nightly.IsNext ⟨0, []⟩ 0 (12600 * Time.second) := by
  have hnext : nightly.next ⟨0, []⟩ 40 0 = some (12600 * Time.second) := by decide +kernel
  exact ⟨by decide +kernel, hnext, (next_isNext nightly rfl rfl 0).2 40 _ hnext⟩

/-! ## Progress up to an occurrence -/

/-- The offset is in force from one instant to another and a day around them. -/
def Steady (location : Time.Location) (offset first last : ℤ) : Prop :=
  ∀ seconds, first / Time.second - 86400 ≤ seconds → seconds ≤ last / Time.second + 86400 →
    (location.lookup seconds).offset = offset

/-- The location has one offset, or the schedule has an occurrence behind the start up to which the
offset, one of whole minutes, does not change. -/
def Undisturbed (schedule : CronSchedule) (location : Time.Location) (start : ℤ) : Prop :=
  location.changes = [] ∨ ∃ offset target, offset % 60 = 0 ∧ -86400 ≤ offset ∧ offset ≤ 86400 ∧
    schedule.Occurs location start target ∧ Steady location offset start target

theorem dateOffset_of_lookup {offset unix : ℤ} (h : (location.lookup unix).offset = offset)
    (hutc : (location.lookup (unix - offset)).offset = offset) :
    location.dateOffset unix = offset := by
  unfold Time.Location.dateOffset
  simp only [h, hutc, ite_self]
  split_ifs with hzero
  · rfl
  · exact (not_not.mp hzero).symm

section

variable {offset start target : ℤ} (hwhole : offset % 60 = 0) (hlow : -86400 ≤ offset)
  (hhigh : offset ≤ 86400) (hoccurs : schedule.Occurs location start target)
  (hsteady : Steady location offset start target)

include hsteady in
theorem Steady.localSeconds {t : ℤ} (hfirst : start ≤ t) (hlast : t ≤ target) :
    location.localSeconds t = Time.Location.localSeconds ⟨offset, []⟩ t := by
  have hfirst' : start / Time.second ≤ t / Time.second := Int.ediv_le_ediv (by decide) hfirst
  have hlast' : t / Time.second ≤ target / Time.second := Int.ediv_le_ediv (by decide) hlast
  have hfixed : (⟨offset, []⟩ : Time.Location).changes = [] := rfl
  rw [Time.localSeconds_of_fixed hfixed, Time.Location.localSeconds,
    hsteady _ (by omega) (by omega)]

include hwhole hlow hhigh hoccurs hsteady

/-- Before the occurrence a turn goes where it would go with the offset fixed: forward, and not
beyond the occurrence. -/
theorem skip_of_steady {candidate' : ℤ} (hfirst : start < candidate) (hlast : candidate ≤ target)
    (hcandidate : candidate % Time.minute = 0)
    (h : schedule.skip location candidate = some candidate') :
    candidate < candidate' ∧ candidate' ≤ target ∧ candidate' % Time.minute = 0 := by
  have hfixed : (⟨offset, []⟩ : Time.Location).changes = [] := rfl
  have hlocal := Steady.localSeconds hsteady hfirst.le hlast
  have hfields : location.fields candidate = Time.Location.fields ⟨offset, []⟩ candidate :=
    congrArg Time.fieldsOf hlocal
  have hasked : schedule.asked location candidate = schedule.asked ⟨offset, []⟩ candidate := by
    unfold asked
    rw [hfields]
  have hlisted : schedule.MinuteMatches (minuteOf ⟨offset, []⟩ target) := by
    rw [minuteOf, ← Steady.localSeconds hsteady hoccurs.behind.le le_rfl]
    exact (minuteMatches_minuteOf target).mpr hoccurs.listed
  -- with the offset fixed the occurrence is not passed over
  have hpasses : ∀ c, schedule.skip ⟨offset, []⟩ candidate = some c →
      candidate < c ∧ c ≤ target ∧ c % Time.minute = 0 := by
    intro c hskip
    have hc := skip_whole hfixed hwhole hcandidate hskip
    refine ⟨lt_skip hfixed hskip, not_lt.mp fun hlt => ?_, hc⟩
    exact skip_passes hfixed hskip (minuteOf_mono hfixed hlast)
      (minuteOf_lt hfixed hoccurs.whole hc hlt) hlisted
  apply hpasses
  rw [← h, skip_eq, skip_eq, hasked, hfields]
  cases hunix : schedule.asked ⟨offset, []⟩ candidate with
  | none => rfl
  | some unix =>
    have hoffset : Time.Location.dateOffset ⟨offset, []⟩ unix = offset :=
      dateOffset_of_lookup rfl rfl
    have hinstant : schedule.skip ⟨offset, []⟩ candidate =
        some ((unix - offset) * Time.second) := by
      rw [skip_eq, hunix, Option.elim_some, hoffset]
    obtain ⟨hafter, hbefore, -⟩ := hpasses _ hinstant
    have hseconds : start / Time.second ≤ unix - offset ∧ unix - offset ≤ target / Time.second := by
      simp only [Time.second] at *
      omega
    have hoffset' : location.dateOffset unix = offset :=
      dateOffset_of_lookup (hsteady _ (by omega) (by omega)) (hsteady _ (by omega) (by omega))
    rw [Option.elim_some, Option.elim_some, hoffset, hoffset']

end

end Layr.Tasks.CronSchedule
