import Mathlib.Data.List.Basic

/-!
# Runs of a transition system

A system is a partial step function on states and labels. A run is a sequence of steps, each of
which may be required to meet a condition in the state it is taken in; what holds at the start
and is kept by every such step holds in every state of a run.
-/

namespace Layr.Runs

variable {State Label : Type}

variable {labels : List Label} {start s : State} {step : State → Label → Option State}
  {allowed : State → Label → Prop}

/-- The states that runs from `start` reach with steps that meet `allowed`. -/
inductive Run (step : State → Label → Option State) (allowed : State → Label → Prop)
    (start : State) : State → Prop
  | refl : Run step allowed start start
  | step {s s' : State} {label : Label} (hrun : Run step allowed start s)
      (hallowed : allowed s label) (hstep : step s label = some s') : Run step allowed start s'

/-- An invariant holds along every run. -/
theorem Run.invariant {Inv : State → Prop} (hstart : Inv start)
    (hkeeps : ∀ s label s', Inv s → allowed s label → step s label = some s' → Inv s')
    (hrun : Run step allowed start s) : Inv s := by
  induction hrun with
  | refl => exact hstart
  | step _ hallowed hstep ih => exact hkeeps _ _ _ ih hallowed hstep

/-- The state after a list of steps, if each of them can be taken. -/
def exec (step : State → Label → Option State) : State → List Label → Option State
  | s, [] => some s
  | s, label :: labels => (step s label).bind fun s' => exec step s' labels

/-- Every step of the list meets the condition in the state it is taken in. -/
def allAllowed (step : State → Label → Option State) (allowed : State → Label → Prop)
    [∀ s label, Decidable (allowed s label)] : State → List Label → Bool
  | _, [] => true
  | s, label :: labels =>
    decide (allowed s label) &&
      ((step s label).map fun s' => allAllowed step allowed s' labels).getD true

theorem Run.of_exec_from [∀ s label, Decidable (allowed s label)] {s' : State}
    (hrun : Run step allowed start s) (hallowed : allAllowed step allowed s labels)
    (hexec : exec step s labels = some s') : Run step allowed start s' := by
  induction labels generalizing s with
  | nil =>
    cases hexec
    exact hrun
  | cons label labels ih =>
    rw [exec, Option.bind_eq_some_iff] at hexec
    obtain ⟨next, hstep, hexec⟩ := hexec
    rw [allAllowed, hstep, Bool.and_eq_true, decide_eq_true_eq] at hallowed
    exact ih (hrun.step hallowed.1 hstep) hallowed.2 hexec

/-- A list of steps that can be taken and meet the condition is a run. -/
theorem Run.of_exec [∀ s label, Decidable (allowed s label)]
    (hallowed : allAllowed step allowed start labels)
    (hexec : exec step start labels = some s) : Run step allowed start s :=
  Run.of_exec_from .refl hallowed hexec

/-- A list of steps that can be taken and always meet the condition is a run. -/
theorem Run.of_exec_always {s' : State} (hrun : Run step allowed start s)
    (hallowed : ∀ label ∈ labels, ∀ s, allowed s label) (hexec : exec step s labels = some s') :
    Run step allowed start s' := by
  induction labels generalizing s with
  | nil =>
    cases hexec
    exact hrun
  | cons label labels ih =>
    rw [exec, Option.bind_eq_some_iff] at hexec
    obtain ⟨next, hstep, hexec⟩ := hexec
    exact ih (hrun.step (hallowed label List.mem_cons_self s) hstep)
      (fun label hmem => hallowed label (List.mem_cons_of_mem _ hmem)) hexec

/-! ## Runs on a sample -/

section

variable {α : Type} {a : α} {P : State → Prop}

/-- A list of steps can be taken, and leads to a state of which `f` tells enough. -/
theorem exists_exec (f : State → α) (hexec : (exec step start labels).map f = some a)
    (hstate : ∀ s, f s = a → P s) : ∃ s, exec step start labels = some s ∧ P s := by
  obtain ⟨s, hexec, hs⟩ := Option.map_eq_some_iff.mp hexec
  exact ⟨s, hexec, hstate s hs⟩

theorem exists_exec₂ {β : Type} {b : β} (f : State → α) (g : State → β)
    (hexec : (exec step start labels).map (fun s => (f s, g s)) = some (a, b))
    (hstate : ∀ s, f s = a → g s = b → P s) : ∃ s, exec step start labels = some s ∧ P s :=
  exists_exec _ hexec fun s hs => hstate s (Prod.mk.inj hs).1 (Prod.mk.inj hs).2

variable [∀ s label, Decidable (allowed s label)]

/-- The same for steps that meet the condition. -/
theorem exists_exec_run (f : State → α) (hexec : (exec step start labels).map f = some a)
    (hallowed : allAllowed step allowed start labels)
    (hstate : ∀ s, Run step allowed start s → f s = a → P s) :
    ∃ s, exec step start labels = some s ∧ P s := by
  obtain ⟨s, hexec, hs⟩ := Option.map_eq_some_iff.mp hexec
  exact ⟨s, hexec, hstate s (.of_exec hallowed hexec) hs⟩

/-- A run on fixed labels, by what is read off its last state. -/
theorem exists_run (labels : List Label) (f : State → α)
    (hexec : (exec step start labels).map f = some a)
    (hallowed : allAllowed step allowed start labels)
    (hstate : ∀ s, Run step allowed start s → f s = a → P s) :
    ∃ s, Run step allowed start s ∧ P s :=
  (exists_exec_run f hexec hallowed hstate).imp fun _ hs => ⟨.of_exec hallowed hs.1, hs.2⟩

end

end Layr.Runs
