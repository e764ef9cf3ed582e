import Mathlib.Data.List.Induction
import Mathlib.Data.List.Perm.Basic
import Mathlib.Logic.Function.Basic

/-!
# Assignments in any order

A list of assignments is made one after another, each to the key that it is for. What a key holds
behind them is what was assigned to it last, so it is the same for every order of the assignments
exactly when all assignments to the key are of one value.
-/

namespace Layr.Assignments

variable {α κ β : Type} [DecidableEq κ] (key : α → κ) (value : α → β)

/-- The assignments of a list, one after another. -/
def assign (m : κ → Option β) (as : List α) : κ → Option β :=
  as.foldl (fun m a => Function.update m (key a) (some (value a))) m

variable {key value}

@[simp]
theorem assign_append_singleton (m : κ → Option β) (as : List α) (a : α) :
    assign key value m (as ++ [a]) =
      Function.update (assign key value m as) (key a) (some (value a)) := by
  rw [assign, List.foldl_append]
  rfl

variable {m : κ → Option β} {as : List α} {k : κ}

/-- A key that no assignment is for. -/
theorem assign_of_forall_ne (h : ∀ a ∈ as, key a ≠ k) : assign key value m as k = m k := by
  induction as using List.reverseRecOn with
  | nil => rfl
  | append_singleton as a ih =>
    have hne : k ≠ key a := fun heq => h a (by simp) heq.symm
    rw [assign_append_singleton, Function.update_of_ne hne]
    exact ih fun b hb => h b (by simp [hb])

/-- A key that some assignments are for, all of one value. -/
theorem assign_of_forall_eq {r : Option β} (hsome : ∃ a ∈ as, key a = k)
    (h : ∀ a ∈ as, key a = k → r = some (value a)) : assign key value m as k = r := by
  induction as using List.reverseRecOn with
  | nil => simp at hsome
  | append_singleton as a ih =>
    rw [assign_append_singleton]
    by_cases hkey : key a = k
    · rw [← hkey, Function.update_self]
      exact (h a (by simp) hkey).symm
    · -- the last assignment is for another key, so an earlier one is for this one
      rw [Function.update_of_ne (Ne.symm hkey)]
      refine ih ?_ fun b hb => h b (by simp [hb])
      obtain ⟨b, hb, hkey'⟩ := hsome
      rcases List.mem_append.mp hb with hb | hb
      · exact ⟨b, hb, hkey'⟩
      · rw [List.mem_singleton.mp hb] at hkey'
        exact absurd hkey' hkey

/-- What a key holds for every order of the assignments. -/
theorem forall_perm_assign_iff {r : Option β} :
    (∀ bs, bs.Perm as → assign key value m bs k = r) ↔
      (∀ a ∈ as, key a = k → r = some (value a)) ∧ ((∀ a ∈ as, key a ≠ k) → r = m k) := by
  constructor
  · intro h
    constructor
    · -- put the assignment last
      intro a ha hkey
      obtain ⟨before, behind, rfl⟩ := List.append_of_mem ha
      have hperm : (before ++ behind ++ [a]).Perm (before ++ a :: behind) := by
        rw [List.append_assoc]
        exact (List.perm_append_singleton a behind).append_left before
      have hlast := h _ hperm
      rw [assign_append_singleton, ← hkey, Function.update_self] at hlast
      exact hlast.symm
    · intro hne
      rw [← h as (List.Perm.refl as), assign_of_forall_ne hne]
  · rintro ⟨heq, hne⟩ bs hperm
    by_cases hsome : ∃ a ∈ bs, key a = k
    · exact assign_of_forall_eq hsome fun a ha => heq a (hperm.mem_iff.mp ha)
    · have hnone : ∀ a ∈ bs, key a ≠ k := fun a ha hkey => hsome ⟨a, ha, hkey⟩
      rw [assign_of_forall_ne hnone]
      exact (hne fun a ha => hnone a (hperm.mem_iff.mpr ha)).symm

end Layr.Assignments
