import Mathlib.Data.List.Basic

/-!
# Numbered arguments

A generator that emits numbered holes and, beside them, the list of values for the holes. A part
is `Numbered` when its holes are the interval of numbers from `start` on, one for each of its
values, in order; `Binds` says that an assignment gives the holes of a part their values. Both
are closed under putting one part after another.
-/

namespace Layr.Lib

variable {α : Type}

/-- The holes `holes` of a part count up from `start`, one for each value in `args`, and `next`
is the first number after them. -/
structure Numbered (start : ℕ) (holes : List ℕ) (args : List α) (next : ℕ) : Prop where
  holes_eq : holes = List.range' start args.length
  next_eq : next = start + args.length

namespace Numbered

theorem nil (start : ℕ) : Numbered start [] ([] : List α) start := ⟨rfl, rfl⟩

/-- A part with one hole for each of the given values. -/
theorem range (start : ℕ) (args : List α) :
    Numbered start (List.range' start args.length) args (start + args.length) := ⟨rfl, rfl⟩

/-- Parts that follow each other. -/
theorem append {start middle next : ℕ} {holes holes' : List ℕ} {args args' : List α}
    (h : Numbered start holes args middle) (h' : Numbered middle holes' args' next) :
    Numbered start (holes ++ holes') (args ++ args') next := by
  obtain ⟨rfl, rfl⟩ := h
  obtain ⟨rfl, rfl⟩ := h'
  refine ⟨?_, ?_⟩
  · rw [List.length_append, List.range'_append_1]
  · rw [List.length_append, Nat.add_assoc]

end Numbered

/-- The assignment `σ` gives the numbers from `start` on the values `args`. -/
def Binds (σ : ℕ → α) (start : ℕ) (args : List α) : Prop :=
  (List.range' start args.length).map σ = args

namespace Binds

variable {σ : ℕ → α} {start : ℕ}

/-- The values of two parts are bound by binding each part from its own first number. -/
theorem append_iff {args args' : List α} :
    Binds σ start (args ++ args') ↔
      Binds σ start args ∧ Binds σ (start + args.length) args' := by
  unfold Binds
  rw [List.length_append, ← List.range'_append_1, List.map_append]
  constructor
  · intro h
    exact List.append_inj h (by simp)
  · rintro ⟨h, h'⟩
    rw [h, h']

theorem cons_iff {arg : α} {args : List α} :
    Binds σ start (arg :: args) ↔ σ start = arg ∧ Binds σ (start + 1) args := by
  unfold Binds
  rw [List.length_cons, List.range'_succ, List.map_cons, List.cons.injEq]

/-- A list of values is bound from any number on by looking the rest of a number up in it. -/
theorem lookup (start : ℕ) (args : List α) (default : α) :
    Binds (fun index => args.getD (index - start) default) start args := by
  refine List.ext_getElem (by simp) fun i hi hi' => ?_
  simp [hi']

end Binds

end Layr.Lib
