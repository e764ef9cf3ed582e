import Mathlib.Data.List.Basic
import Mathlib.Order.Defs.LinearOrder
import Mathlib.Algebra.Order.Ring.Int

/-!
# Streaks of hits

A counter whose lifetime starts anew with every hit counts a streak: the hits, latest first, each
less than a window before the next one, back to a hit that cleared the counter.

  `streak t (hit :: earlier) = streak hit.time earlier + 1`  if `t < hit.time + window`

The hits of the last window are part of the streak, but a streak may be much longer than a window.
-/

namespace Layr.Streaks

/-- A hit at a time, which may clear the counter. -/
structure Hit where
  time : ℤ
  clears : Bool
  deriving DecidableEq, Repr

/-- The hits that a counter still knows at a time. The latest hit comes first. -/
def streak (window t : ℤ) : List Hit → ℕ
  | [] => 0
  | hit :: earlier =>
    if hit.clears = false ∧ t < hit.time + window then streak window hit.time earlier + 1 else 0

/-- The hits after a time, back to one that cleared the counter. -/
def recent (since : ℤ) : List Hit → ℕ
  | [] => 0
  | hit :: earlier =>
    if hit.clears = false ∧ since < hit.time then recent since earlier + 1 else 0

/-- Hits that came one after the other, the last of them by a time. -/
def IsLog (t : ℤ) : List Hit → Prop
  | [] => True
  | hit :: earlier => hit.time ≤ t ∧ IsLog hit.time earlier

theorem IsLog.later {t t' : ℤ} {hits : List Hit} (h : IsLog t hits) (hle : t ≤ t') :
    IsLog t' hits := by
  cases hits with
  | nil => trivial
  | cons => exact ⟨h.1.trans hle, h.2⟩

/-- What was hit within the last window belongs to the streak. -/
theorem recent_le_streak {window t since : ℤ} {hits : List Hit} (hlog : IsLog t hits)
    (hsince : t ≤ since + window) : recent since hits ≤ streak window t hits := by
  induction hits generalizing t with
  | nil => exact Nat.le_refl 0
  | cons hit earlier ih =>
    obtain ⟨hle, hlog⟩ := hlog
    rw [recent, streak]
    by_cases hrecent : hit.clears = false ∧ since < hit.time
    · -- the hit is in the window, so the counter has not run out since
      have halive : hit.clears = false ∧ t < hit.time + window := ⟨hrecent.1, by omega⟩
      rw [if_pos hrecent, if_pos halive]
      exact Nat.succ_le_succ (ih hlog (by omega))
    · rw [if_neg hrecent]
      exact Nat.zero_le _

end Layr.Streaks
