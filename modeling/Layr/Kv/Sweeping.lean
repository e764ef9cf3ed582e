import Layr.Kv.Database

/-!
# Sweeping

`Sweep` deletes the rows that have expired. Every statement treats such a row as one that is not
there, so two tables with the same live rows cannot be told apart: a call returns the same on both
and leaves the same live rows, and so does the passing of time. Sweeping keeps the live rows, and
therefore nobody sees whether a table was swept.
-/

namespace Layr.Kv

open Go

namespace Database

/-! ## Tables with the same live rows -/

/-- The same rows are alive. -/
def SameLive (now : ℤ) (table table' : Table) : Prop :=
  ∀ key, aliveRow now table key = aliveRow now table' key

variable {now : ℤ} {table table' : Table}

theorem SameLive.later {later : ℤ} (h : SameLive now table table') (hle : now ≤ later) :
    SameLive later table table' := by
  intro key
  rw [aliveRow_later hle, aliveRow_later hle, h key]

/-- A swept table has the rows it had. -/
theorem sameLive_sweep (now : ℤ) (table : Table) : SameLive now (sweep now table) table := by
  intro key
  show ((sweep now table).get key).filter (·.isAlive now) = aliveRow now table key
  rw [get_sweep, aliveRow, Option.filter_filter]
  congr 1
  funext row
  exact Bool.and_self _

theorem aliveRow_set (now : ℤ) (table : Table) (key key' : String) (row : Row) :
    aliveRow now (table.set key row) key' =
      if key' = key then (some row).filter (·.isAlive now) else aliveRow now table key' := by
  show (GoMap.get key' (table.set key row)).filter (·.isAlive now) = _
  rw [GoMap.get_set]
  split_ifs
  · rfl
  · rfl

theorem SameLive.set (h : SameLive now table table') (key : String) (row : Row) :
    SameLive now (table.set key row) (table'.set key row) := by
  intro key'
  rw [aliveRow_set, aliveRow_set, h key']

theorem SameLive.delete (h : SameLive now table table') (key : String) :
    SameLive now (table.filter fun e => e.1 ≠ key) (table'.filter fun e => e.1 ≠ key) := by
  intro key'
  have hrow := h key'
  unfold aliveRow at hrow ⊢
  rw [GoMap.get_filter_ne, GoMap.get_filter_ne]
  split_ifs
  · rfl
  · exact hrow

/-! ## Calls -/

/-- A call cannot tell the tables apart, and leaves them alike. -/
theorem SameLive.call (h : SameLive now table table') (operation : Operation) :
    (call now table operation).1 = (call now table' operation).1 ∧
      SameLive now (call now table operation).2 (call now table' operation).2 :=
  call_rel (fun key _ row h => h.set key row) (fun key _ h => h.delete key) (fun key _ => h key) h

/-! ## Runs -/

/-- What happens to the store: a call, or a sweep. -/
inductive Step
  | call (operation : Operation)
  | sweep
deriving DecidableEq, Repr

/-- The table after a step. -/
def Step.apply (now : ℤ) (table : Table) : Step → Table
  | call operation => (Database.call now table operation).2
  | sweep => Database.sweep now table

/-- The keys of a step. A sweep has none: it takes rows that are dead already. -/
def Step.keys : Step → List String
  | call operation => operation.keys
  | sweep => []

/-- A step changes no live row but those of its keys. -/
theorem Step.aliveRow_apply {step : Step} {key : String} (hkey : key ∉ step.keys) {later : ℤ}
    (hle : now ≤ later) (table : Table) :
    aliveRow later (step.apply now table) key = aliveRow later table key := by
  cases step with
  | call => exact aliveRow_congr (get_call_of_notMem now table hkey)
  | sweep => exact (sameLive_sweep now table).later hle key

/-- What the calls of a run return, each step at a delay after the one before it. -/
def replies (now : ℤ) (table : Table) : List (ℕ × Step) → List Reply
  | [] => []
  | (delay, .call operation) :: steps =>
    let (reply, table) := Database.call (now + delay) table operation
    reply :: replies (now + delay) table steps
  | (delay, .sweep) :: steps => replies (now + delay) (Database.sweep (now + delay) table) steps

/-- The calls of a run at their times, without the sweeps between them. -/
def callsOnly (now : ℤ) : List (ℕ × Step) → List (ℤ × Operation)
  | [] => []
  | (delay, .call operation) :: steps => (now + delay, operation) :: callsOnly (now + delay) steps
  | (delay, .sweep) :: steps => callsOnly (now + delay) steps

/-- A swept table and one that is not give the same replies. -/
theorem SameLive.replies_eq (h : SameLive now table table') (steps : List (ℕ × Step)) :
    replies now table steps = (runCalls Database.call table' (callsOnly now steps)).1 := by
  -- along the steps the tables stay alike, at the time that has come
  induction steps generalizing now table table' with
  | nil => rfl
  | cons step steps ih =>
    obtain ⟨delay, step⟩ := step
    have hlater : SameLive (now + delay) table table' := h.later (by omega)
    cases step with
    | call operation =>
      obtain ⟨hreply, hafter⟩ := hlater.call operation
      rw [replies, callsOnly, runCalls]
      simp only [hreply, ih hafter]
    | sweep =>
      have hswept : SameLive (now + delay) (Database.sweep (now + delay) table) table' :=
        fun key => (sameLive_sweep _ _ key).trans (hlater key)
      exact ih hswept

/-- Whatever calls are made, at whatever times and with whatever sweeps between them, they return
what they return without any sweep. -/
theorem sweeping_unobservable (now : ℤ) (table : Table) (steps : List (ℕ × Step)) :
    replies now table steps = (runCalls Database.call table (callsOnly now steps)).1 :=
  SameLive.replies_eq (fun _ => rfl) steps

/-- A counter that expires starts anew, swept or not. -/
example :
    replies 0 [] [(0, .call (.increment "n" 2000)), (2, .sweep), (0, .call (.increment "n" 2000))] =
      [.count (.ok 1), .count (.ok 1)] := by decide +kernel

end Database

end Layr.Kv
