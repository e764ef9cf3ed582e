import Layr.Tasks.Poller

/-!
# Progress of the pollers (`tasks/poller.go`)

`PollOnce` asks `Next` for the next run of a due job until the answer is not before now. `Next`
looks five years ahead, and where it finds nothing it answers with the zero time. That is before
now, so the loop goes on from the year 1, runs into the same gap again and never ends. `CreateJob`
and `UpdateJob` take any schedule that parses.
-/

namespace Layr.Tasks

open Go

variable (schedule : CronSchedule) (location : Time.Location)

/-! ## Gaps -/

namespace CronSchedule

/-- A minute that matches comes within the years that `Next` looks ahead. -/
def HasNext (t : ℤ) : Prop :=
  ∃ minute, minuteOf location (firstCandidate t) ≤ minute ∧
    minute < minuteOf location (limit location t) ∧ schedule.MinuteMatches minute

variable {schedule location} {start found : ℤ} {fuel fuel' : ℕ}

theorem lt_of_hasNext (hfixed : location.changes = [])
    (h : schedule.next location fuel start = some found) (hnext : schedule.HasNext location start) :
    start < found ∧ schedule.Matches (location.fields found) := by
  have hfirst := lt_firstCandidate start
  obtain ⟨last, hle, -, hpassed, ⟨rfl, -, hmatches⟩ | ⟨-, hlimit⟩⟩ := search_spec hfixed h
  · exact ⟨by omega, hmatches⟩
  · obtain ⟨minute, hlow, hhigh, hmatches⟩ := hnext
    exact absurd hmatches (hpassed minute hlow (hhigh.trans_le (minuteOf_mono hfixed hlimit)))

theorem limit_whole (hfixed : location.changes = []) (hwhole : location.first % 60 = 0)
    (start : ℤ) : limit location start % Time.minute = 0 := by
  have hcandidate := firstCandidate_whole start
  refine date_whole hfixed hwhole ?_
  simp only [Time.Location.fields, Time.fieldsOf, Time.localSeconds_of_fixed hfixed]
  simp only [Time.minute, Time.second] at *
  omega

theorem zero_of_not_hasNext (hfixed : location.changes = []) (hwhole : location.first % 60 = 0)
    (h : schedule.next location fuel start = some found)
    (hnext : ¬schedule.HasNext location start) : found = Time.zero := by
  obtain ⟨last, hle, hlast, -, ⟨rfl, hlimit, hmatches⟩ | ⟨hzero, -⟩⟩ := search_spec hfixed h
  · have hlt := minuteOf_lt hfixed (hlast hwhole (firstCandidate_whole start))
      (limit_whole hfixed hwhole start) hlimit
    exact absurd ⟨_, minuteOf_mono hfixed hle, hlt, (minuteMatches_minuteOf _).mpr hmatches⟩ hnext
  · exact hzero

theorem search_mono {bound candidate : ℤ} (hle : fuel ≤ fuel')
    (h : schedule.search location bound fuel candidate = some found) :
    schedule.search location bound fuel' candidate = some found := by
  induction fuel generalizing fuel' candidate with
  | zero => cases h
  | succ fuel ih =>
    obtain ⟨rest, rfl⟩ := Nat.exists_eq_add_of_le' hle
    rw [← Nat.add_assoc, search]
    rw [search] at h
    split_ifs at h ⊢ with hbound
    · cases hskip : schedule.skip location candidate with
      | none => rwa [hskip] at h
      | some =>
        rw [hskip] at h
        exact ih (by omega) h
    · exact h

end CronSchedule

/-! ## The loop -/

namespace Poller

open CronSchedule

variable (now nextRunAt : ℤ)

/-- The loop ends with a time that is not before now. -/
def Advances : Prop :=
  ∃ fuel turns t, newNextRunAt schedule location now fuel turns nextRunAt = some t ∧ now ≤ t

/-- Behind the stored run, and behind every matching time from there until now, another minute
matches within five years. -/
def Unbroken : Prop :=
  schedule.HasNext location nextRunAt ∧ ∀ t, nextRunAt < t → t < now →
    schedule.Matches (location.fields t) → schedule.HasNext location t

variable {schedule location now nextRunAt}

theorem newNextRunAt_mono {fuel fuel' turns : ℕ} {t t' : ℤ} (hle : fuel ≤ fuel')
    (h : newNextRunAt schedule location now fuel turns t = some t') :
    newNextRunAt schedule location now fuel' turns t = some t' := by
  induction turns generalizing t with
  | zero => cases h
  | succ turns ih =>
    obtain ⟨found, hfound, h⟩ := Option.bind_eq_some_iff.mp h
    rw [newNextRunAt, CronSchedule.next, search_mono hle hfound, Option.bind_some]
    split_ifs at h ⊢
    · exact ih h
    · exact h

theorem advances_of_unbroken (hfixed : location.changes = [])
    (h : Unbroken schedule location now nextRunAt) :
    Advances schedule location now nextRunAt := by
  -- the induction is on the way that is left until now
  induction hleft : (now - nextRunAt).toNat using Nat.strong_induction_on generalizing nextRunAt
  next left ih =>
  obtain ⟨hnext, hgaps⟩ := h
  obtain ⟨fuel, hends⟩ := schedule.next_ends hfixed nextRunAt
  obtain ⟨found, hfound⟩ := Option.isSome_iff_exists.mp hends
  obtain ⟨hlt, hmatches⟩ := lt_of_hasNext hfixed hfound hnext
  by_cases hbefore : found < now
  · have hrest : Unbroken schedule location now found :=
      ⟨hgaps found hlt hbefore hmatches, fun t hlt' => hgaps t (hlt.trans hlt')⟩
    obtain ⟨fuel', turns, t, hloop, hle⟩ := ih _ (by omega) hrest rfl
    refine ⟨max fuel fuel', turns + 1, t, ?_, hle⟩
    rw [newNextRunAt, CronSchedule.next, search_mono (le_max_left ..) hfound, Option.bind_some,
      if_pos hbefore]
    exact newNextRunAt_mono (le_max_right ..) hloop
  · refine ⟨fuel, 1, found, ?_, not_lt.mp hbefore⟩
    rw [newNextRunAt, hfound, Option.bind_some, if_neg hbefore]

/-- The loop does not get past a gap: it starts over. -/
theorem newNextRunAt_of_gap {fuel turns : ℕ} {gap t : ℤ} (hfixed : location.changes = [])
    (hwhole : location.first % 60 = 0) (hnow : gap < now)
    (hnext : ¬schedule.HasNext location gap)
    (hgap : gap = Time.zero ∨
      gap % Time.minute = 0 ∧ schedule.Matches (location.fields gap))
    (hzero : Time.zero ≤ t) (hle : t ≤ gap) :
    newNextRunAt schedule location now fuel turns t = none := by
  induction turns generalizing t with
  | zero => rfl
  | succ turns ih =>
    rw [newNextRunAt]
    cases hfound : schedule.next location fuel t with
    | none => rfl
    | some found =>
      have hrest : Time.zero ≤ found ∧ found ≤ gap := by
        rcases hle.eq_or_lt with rfl | hlt
        · rw [zero_of_not_hasNext hfixed hwhole hfound hnext]
          exact ⟨le_rfl, hzero⟩
        · rcases isNext_of_next hfixed hwhole hfound with ⟨hoccurs, -, hleast⟩ | ⟨rfl, -⟩
          · have hbehind := hoccurs.behind
            rcases hgap with rfl | ⟨hwhole', hmatches⟩
            · omega
            · exact ⟨by omega, hleast gap ⟨hlt, hwhole', hmatches⟩⟩
          · exact ⟨le_rfl, by omega⟩
      rw [Option.bind_some, if_pos (by omega)]
      exact ih hrest.1 hrest.2

/-- The loop ends where no gap lies between the stored run and now. For an offset of whole minutes,
and a run that was stored by `CreateJob`, `UpdateJob` or an earlier poll, it ends only there. -/
theorem advances_iff_unbroken (schedule : CronSchedule) {location : Time.Location}
    (hfixed : location.changes = []) (now nextRunAt : ℤ) :
    (Unbroken schedule location now nextRunAt → Advances schedule location now nextRunAt) ∧
    ∀ fuel start, location.first % 60 = 0 → Time.zero ≤ start →
      schedule.next location fuel start = some nextRunAt → nextRunAt < now →
      Advances schedule location now nextRunAt → Unbroken schedule location now nextRunAt := by
  refine ⟨advances_of_unbroken hfixed, ?_⟩
  rintro fuel start hwhole hstart hstored hdue ⟨fuel', turns, t, hloop, -⟩
  have hrun : Time.zero ≤ nextRunAt ∧ nextRunAt % Time.minute = 0 ∧
      (nextRunAt = Time.zero ∨ schedule.Matches (location.fields nextRunAt)) := by
    rcases isNext_of_next hfixed hwhole hstored with ⟨⟨hbehind, hminute, hmatches⟩, -⟩ | ⟨rfl, -⟩
    · exact ⟨by omega, hminute, .inr hmatches⟩
    · exact ⟨le_rfl, by decide, .inl rfl⟩
  have hnever : ∀ gap, nextRunAt ≤ gap → gap < now → gap % Time.minute = 0 →
      (gap = Time.zero ∨ schedule.Matches (location.fields gap)) →
      schedule.HasNext location gap := by
    intro gap hle hnow hminute hgap
    by_contra hnext
    rw [newNextRunAt_of_gap hfixed hwhole hnow hnext (hgap.imp_right fun h => ⟨hminute, h⟩)
      hrun.1 hle] at hloop
    cases hloop
  refine ⟨hnever nextRunAt le_rfl hdue hrun.2.1 hrun.2.2, fun t hlt hbefore hmatches => ?_⟩
  -- the minute in which the time lies has the same candidates
  have hcandidate : firstCandidate (Time.truncate t Time.minute) = firstCandidate t := by
    simp [firstCandidate, Time.truncate]
  have hminute : minuteOf location (Time.truncate t Time.minute) = minuteOf location t := by
    unfold minuteOf
    rw [Time.localSeconds_of_fixed hfixed, Time.localSeconds_of_fixed hfixed]
    simp only [Time.truncate, Time.minute, Time.second]
    omega
  have hnext := hnever (Time.truncate t Time.minute)
    (by simp only [Time.truncate, Time.minute, Time.second] at *; omega)
    (by simp only [Time.truncate, Time.minute, Time.second] at *; omega)
    (by simp [Time.truncate])
    (.inr ((minuteMatches_minuteOf _).mp (hminute ▸ (minuteMatches_minuteOf t).mpr hmatches)))
  unfold HasNext limit at hnext ⊢
  rwa [hcandidate] at hnext

/-- A poll right behind the run of the first night. -/
theorem nightly_advances :
    Advances nightly ⟨0, []⟩ (12600 * Time.second + 1) (12600 * Time.second) := by
  have hfound : nightly.next ⟨0, []⟩ 100 (12600 * Time.second) = some (99000 * Time.second) := by
    decide +kernel
  have hnext : nightly.HasNext ⟨0, []⟩ (12600 * Time.second) := by
    by_contra hnone
    exact absurd (zero_of_not_hasNext rfl rfl hfound hnone) (by decide)
  exact (advances_iff_unbroken nightly rfl _ _).1 ⟨hnext, fun t hlt hbefore => by omega⟩

/-- The thirtieth of February. -/
def thirtieth : CronSchedule :=
  { nightly with
    originalExpression := "0 0 30 2 *"
    minutes := [0]
    hours := [0]
    daysOfMonth := [30]
    months := [2]
    dayOfMonthWildcard := false }

/-- The schedule parses, its first run is the zero time, and every poll of it goes on forever. -/
theorem thirtieth_never :
    (parseCron "0 0 30 2 *").toOption = some thirtieth ∧
      thirtieth.next ⟨0, []⟩ 250 0 = some Time.zero ∧
      ∀ now fuel turns, Time.zero < now →
        newNextRunAt thirtieth ⟨0, []⟩ now fuel turns Time.zero = none := by
  have hfound : thirtieth.next ⟨0, []⟩ 250 Time.zero = some Time.zero := by decide +kernel
  have hnext : ¬thirtieth.HasNext ⟨0, []⟩ Time.zero := fun hnext =>
    absurd (lt_of_hasNext rfl hfound hnext).1 (lt_irrefl _)
  exact ⟨by decide +kernel, by decide +kernel, fun now fuel turns hnow =>
    newNextRunAt_of_gap rfl rfl hnow hnext (.inl rfl) le_rfl le_rfl⟩

end Poller

end Layr.Tasks
