import Mathlib.Data.List.Basic

/-!
# Results of fallible Go functions

A Go function that returns `(T, error)` is an `Except`. A success of a sequence of such calls is
taken apart with `bind_eq_ok`, one call at a time, so that no proof unfolds the monad.
-/

namespace Layr.Go
namespace Result

variable {ε α β : Type}

/-- A sequence of two calls succeeds exactly when both do. -/
theorem bind_eq_ok {x : Except ε α} {f : α → Except ε β} {b : β} :
    (x >>= f) = .ok b ↔ ∃ a, x = .ok a ∧ f a = .ok b := by
  cases x with
  | error e | ok a => simp [bind, Except.bind]

theorem mapError_eq_ok {ε' : Type} {x : Except ε α} {f : ε → ε'} {a : α} :
    x.mapError f = .ok a ↔ x = .ok a := by
  cases x with
  | error e | ok b => simp [Except.mapError]

/-- A sequence of calls that do not fail with an error does not fail with it. -/
theorem bind_ne_error {x : Except ε α} {f : α → Except ε β} {e : ε} (hx : x ≠ .error e)
    (hf : ∀ a, f a ≠ .error e) : (x >>= f) ≠ .error e := by
  cases x with
  | error cause => simpa [bind, Except.bind] using hx
  | ok a => exact hf a

/-- The results of a successful loop are those of its calls. -/
theorem mem_of_mapM {f : α → Except ε β} {as : List α} {bs : List β} (h : as.mapM f = .ok bs)
    (b : β) : b ∈ bs ↔ ∃ a ∈ as, f a = .ok b := by
  induction as generalizing bs with
  | nil =>
    cases h
    simp
  | cons a as ih =>
    rw [List.mapM_cons] at h
    obtain ⟨first, hfirst, h⟩ := bind_eq_ok.mp h
    obtain ⟨tail, htail, h⟩ := bind_eq_ok.mp h
    cases h
    rw [List.mem_cons, List.exists_mem_cons_iff, ih htail, hfirst, Except.ok.injEq, eq_comm]

/-- What all results of a successful loop have in common. -/
theorem forall_mem_of_mapM {f : α → Except ε β} {p : β → Prop}
    (hf : ∀ a b, f a = .ok b → p b) {as : List α} {bs : List β} (h : as.mapM f = .ok bs) :
    ∀ b ∈ bs, p b := by
  intro b hb
  obtain ⟨a, -, ha⟩ := (mem_of_mapM h b).mp hb
  exact hf a b ha

/-- An invariant of a loop that may fail. -/
theorem foldlM_invariant {f : β → α → Except ε β} {p : β → Prop}
    (hf : ∀ b a b', p b → f b a = .ok b' → p b') {as : List α} {b b' : β} (hb : p b)
    (h : as.foldlM f b = .ok b') : p b' := by
  induction as generalizing b with
  | nil =>
    cases h
    exact hb
  | cons a as ih =>
    rw [List.foldlM_cons] at h
    obtain ⟨next, hnext, h⟩ := bind_eq_ok.mp h
    exact ih (hf b a next hb hnext) h

end Result
end Layr.Go
