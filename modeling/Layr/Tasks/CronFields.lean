import Layr.Go.Result
import Layr.Go.Words
import Layr.Tasks.Cron

/-!
# The numbers of a cron field (`tasks/cron.go`)

Each part of a field stands for a progression within the limits of the field. The loop that
collects its numbers adds the step to a 64-bit counter. A step of almost `2 ^ 63` makes the counter
wrap, and the loop collects negative numbers.
-/

namespace Layr.Tasks

open Go

/-- A part of the field has this range and this step. -/
def IsPart (field : String) (minLimit maxLimit first last step : ℤ) : Prop :=
  ∃ part ∈ Strings.split ',' field, ∃ rangeSegment,
    parseCronStep (Strings.trimSpace part) = .ok (rangeSegment, step) ∧
      parseCronRange minLimit maxLimit rangeSegment = .ok (first, last)

/-- One of the numbers `first`, `first + step`, `first + 2 * step`, … that are not above `last`. -/
def InProgression (first last step n : ℤ) : Prop := n ≤ last ∧ ∃ k : ℕ, n = first + k * step

/-- The numbers of a field are those of its parts, there is one, and they keep to the limits. -/
structure IsUnion (field : String) (minLimit maxLimit : ℤ) (items : List ℤ) : Prop where
  mem_iff : ∀ n, n ∈ items ↔ ∃ first last step,
    IsPart field minLimit maxLimit first last step ∧ InProgression first last step n
  nonempty : items ≠ []
  within : ∀ n ∈ items, minLimit ≤ n ∧ n ≤ maxLimit

/-- No part has a step that takes its first number beyond the 64-bit integers. -/
def StepsFit (field : String) (minLimit maxLimit : ℤ) : Prop :=
  ∀ first last step, IsPart field minLimit maxLimit first last step → first + step < 2 ^ 63

variable {field : String} {minLimit maxLimit first last step : ℤ} {items : List ℤ}

theorem step_of_parseCronStep {part rangeSegment : String}
    (h : parseCronStep part = .ok (rangeSegment, step)) : 0 < step ∧ step < 2 ^ 63 := by
  unfold parseCronStep at h
  split at h
  · split at h
    · split at h
      next hnumber =>
        split at h
        · cases h
        cases h
        obtain ⟨magnitude, -, hvalue⟩ := Option.bind_eq_some_iff.mp hnumber
        obtain ⟨hrange, hvalue⟩ := Option.ite_none_right_eq_some.mp hvalue
        cases hvalue
        exact ⟨by omega, hrange.2⟩
      · cases h
    · cases h
  · cases h
    decide

theorem range_of_parseCronRange {rangeSegment : String} (hlimits : minLimit ≤ maxLimit)
    (h : parseCronRange minLimit maxLimit rangeSegment = .ok (first, last)) :
    minLimit ≤ first ∧ first ≤ last ∧ last ≤ maxLimit := by
  unfold parseCronRange at h
  split at h
  · cases h
    exact ⟨le_rfl, hlimits, le_rfl⟩
  split at h
  · split at h
    · split at h
      · split at h
        · cases h
        · cases h
          omega
      · cases h
    · cases h
  · split at h
    · split at h
      · cases h
      · cases h
        omega
    · cases h

theorem parseCronPart_eq_ok {part : String} {numbers : List ℤ} :
    parseCronPart field minLimit maxLimit part = .ok numbers ↔
      ∃ rangeSegment first last step,
        parseCronStep (Strings.trimSpace part) = .ok (rangeSegment, step) ∧
        parseCronRange minLimit maxLimit rangeSegment = .ok (first, last) ∧
        cronItems last step 128 first = numbers := by
  unfold parseCronPart
  dsimp only
  constructor
  · intro h
    split at h
    · cases h
    obtain ⟨⟨rangeSegment, step⟩, hstep, h⟩ := Result.bind_eq_ok.mp h
    obtain ⟨⟨first, last⟩, hrange, h⟩ := Result.bind_eq_ok.mp h
    exact ⟨rangeSegment, first, last, step, hstep, hrange, Except.ok.inj h⟩
  · rintro ⟨rangeSegment, first, last, step, hstep, hrange, rfl⟩
    have hne : Strings.trimSpace part ≠ "" := by
      intro hempty
      rw [hempty] at hstep
      cases hstep
      cases hrange
    simp only [if_neg hne, hstep, hrange, bind, Except.bind]

theorem mem_parseCronField (h : parseCronField field minLimit maxLimit = .ok items) (n : ℤ) :
    n ∈ items ↔ ∃ first last step, IsPart field minLimit maxLimit first last step ∧
      n ∈ cronItems last step 128 first := by
  obtain ⟨parts, hparts, h⟩ := Result.bind_eq_ok.mp h
  cases h
  simp only [List.mem_flatten, Result.mem_of_mapM hparts, parseCronPart_eq_ok]
  constructor
  · rintro ⟨_, ⟨part, hpart, rangeSegment, first, last, step, hstep, hrange, rfl⟩, hn⟩
    exact ⟨first, last, step, ⟨part, hpart, rangeSegment, hstep, hrange⟩, hn⟩
  · rintro ⟨first, last, step, ⟨part, hpart, rangeSegment, hstep, hrange⟩, hn⟩
    exact ⟨_, ⟨part, hpart, rangeSegment, first, last, step, hstep, hrange, rfl⟩, hn⟩

/-- A field has a part. -/
theorem exists_isPart (h : parseCronField field minLimit maxLimit = .ok items) :
    ∃ first last step, IsPart field minLimit maxLimit first last step := by
  have hne : Strings.split ',' field ≠ [] := by
    rw [Strings.split, Strings.splitRunes_eq_splitOn, ne_eq, List.map_eq_nil_iff]
    exact List.splitOn_ne_nil ',' _
  obtain ⟨part, rest, hsplit⟩ := List.exists_cons_of_ne_nil hne
  obtain ⟨parts, hparts, -⟩ := Result.bind_eq_ok.mp h
  rw [hsplit, List.mapM_cons] at hparts
  obtain ⟨numbers, hnumbers, -⟩ := Result.bind_eq_ok.mp hparts
  obtain ⟨rangeSegment, first, last, step, hstep, hrange, -⟩ := parseCronPart_eq_ok.mp hnumbers
  exact ⟨first, last, step, part, hsplit ▸ List.mem_cons_self, rangeSegment, hstep, hrange⟩

theorem not_inProgression {item n : ℤ} (hstep : 0 < step) (hitem : last < item) :
    ¬InProgression item last step n := by
  rintro ⟨hn, k, rfl⟩
  have hsteps := mul_nonneg (Int.natCast_nonneg k) hstep.le
  omega

/-- The loop over a range whose first step does not wrap collects a progression. -/
theorem mem_cronItems {fuel : ℕ} {item n : ℤ} (hitem : 0 ≤ item) (hlast : last ≤ 59)
    (hstep : 0 < step) (hfits : item ≤ last → item + step < 2 ^ 63) (hfuel : last - item < fuel) :
    n ∈ cronItems last step fuel item ↔ InProgression item last step n := by
  induction fuel generalizing item with
  | zero => exact iff_of_false List.not_mem_nil (not_inProgression hstep (by omega))
  | succ fuel ih =>
    rw [cronItems]
    split
    next hle =>
      have hnext : (item + step).bmod (2 ^ 64) = item + step := by
        have := hfits hle
        exact Int.bmod_eq_of_le (by omega) (by omega)
      -- a second step is taken only if the step is small
      rw [hnext, List.mem_cons, ih (by omega) (fun _ => by omega) (by omega)]
      constructor
      · rintro (rfl | ⟨hn, k, rfl⟩)
        · exact ⟨hle, 0, by simp⟩
        · exact ⟨hn, k + 1, by push_cast; ring⟩
      · rintro ⟨hn, _ | k, rfl⟩
        · exact .inl (by simp)
        · exact .inr ⟨hn, k, by push_cast; ring⟩
    next hgt => exact iff_of_false List.not_mem_nil (not_inProgression hstep (by omega))

/-- The loop goes on from a counter that has wrapped. -/
theorem wrapped_mem_cronItems (hfirst : first ≤ last) (hlast : last ≤ 59) (hstep : step < 2 ^ 63)
    (hwrap : 2 ^ 63 ≤ first + step) : first + step - 2 ^ 64 ∈ cronItems last step 128 first := by
  have hnext : (first + step).bmod (2 ^ 64) = first + step - 2 ^ 64 := by
    rw [Int.bmod_def]
    split <;> omega
  rw [cronItems, if_pos hfirst, hnext, cronItems, if_pos (by omega)]
  exact List.mem_cons_of_mem _ List.mem_cons_self

/-- A field that is accepted stands for the progressions of its parts exactly when no step makes
the counter wrap. The limits are within those of minutes, as all limits of the fields are. -/
theorem isUnion_iff_stepsFit (hmin : 0 ≤ minLimit) (hlimits : minLimit ≤ maxLimit)
    (hmax : maxLimit ≤ 59) (h : parseCronField field minLimit maxLimit = .ok items) :
    IsUnion field minLimit maxLimit items ↔ StepsFit field minLimit maxLimit := by
  have hpart : ∀ {first last step : ℤ}, IsPart field minLimit maxLimit first last step →
      minLimit ≤ first ∧ first ≤ last ∧ last ≤ maxLimit ∧ 0 < step ∧ step < 2 ^ 63 := by
    rintro first last step ⟨part, -, rangeSegment, hstep, hrange⟩
    obtain ⟨hfirst, hle, hlast⟩ := range_of_parseCronRange hlimits hrange
    exact ⟨hfirst, hle, hlast, step_of_parseCronStep hstep⟩
  constructor
  · intro hunion first last step hisPart
    obtain ⟨hfirst, hle, hlast, -, hstep⟩ := hpart hisPart
    by_contra hwrap
    have hmem := (mem_parseCronField h _).mpr ⟨first, last, step, hisPart,
      wrapped_mem_cronItems hle (hlast.trans hmax) hstep (not_lt.mp hwrap)⟩
    have hlow := (hunion.within _ hmem).1
    omega
  · intro hfits
    have hmem : ∀ n, n ∈ items ↔ ∃ first last step,
        IsPart field minLimit maxLimit first last step ∧ InProgression first last step n := by
      intro n
      rw [mem_parseCronField h]
      refine exists₃_congr fun first last step => and_congr_right fun hisPart => ?_
      obtain ⟨hfirst, hle, hlast, hpos, -⟩ := hpart hisPart
      exact mem_cronItems (hmin.trans hfirst) (hlast.trans hmax) hpos
        (fun _ => hfits _ _ _ hisPart) (by push_cast; omega)
    refine ⟨hmem, ?_, ?_⟩
    · obtain ⟨first, last, step, hisPart⟩ := exists_isPart h
      exact List.ne_nil_of_mem ((hmem first).mpr
        ⟨first, last, step, hisPart, (hpart hisPart).2.1, 0, by simp⟩)
    · intro n hn
      obtain ⟨first, last, step, hisPart, hle, k, rfl⟩ := (hmem n).mp hn
      obtain ⟨hfirst, -, hlast, hpos, -⟩ := hpart hisPart
      have hsteps := mul_nonneg (Int.natCast_nonneg k) hpos.le
      omega

/-- Every twenty minutes. -/
theorem twenties_isUnion : parseCronField "*/20" 0 59 = .ok [0, 20, 40] ∧
    IsUnion "*/20" 0 59 [0, 20, 40] := by
  have hitems : parseCronField "*/20" 0 59 = .ok [0, 20, 40] := by decide +kernel
  have hsplit : Strings.split ',' "*/20" = ["*/20"] := by decide +kernel
  have hread : parseCronStep (Strings.trimSpace "*/20") = .ok ("*", 20) := by decide +kernel
  refine ⟨hitems, (isUnion_iff_stepsFit le_rfl (by decide) le_rfl hitems).mpr ?_⟩
  rintro first last step ⟨part, hpart, rangeSegment, hstep, hrange⟩
  rw [hsplit, List.mem_singleton] at hpart
  rw [hpart, hread] at hstep
  cases hstep
  cases hrange
  decide

/-- A step of `2 ^ 63 - 1` wraps. -/
theorem wrapped_not_isUnion :
    parseCronField "1-5/9223372036854775807" 0 59 = .ok [1, -2 ^ 63, -1] ∧
      ¬IsUnion "1-5/9223372036854775807" 0 59 [1, -2 ^ 63, -1] := by
  refine ⟨by decide +kernel, fun h => ?_⟩
  have := (h.within (-1) (by simp)).1
  omega

end Layr.Tasks
