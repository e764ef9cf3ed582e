import Layr.Go.Strconv
import Layr.Lib.Table

/-!
# Jobs and executions (`tasks/model.go`, `tasks/migrations.go`)

The rows of `tasks.jobs` and `tasks.executions`. Times are in nanoseconds since the Unix epoch, and
the identifiers that the database draws are numbers.
-/

namespace Layr.Tasks

open Go

/-- The statuses of an execution. -/
inductive Status
  | pending
  | running
  | completed
  | failed
deriving DecidableEq, Repr

abbrev JobID := ℕ

abbrev ExecutionID := ℕ

/-- A row of `tasks.jobs`. -/
structure Job where
  name : String
  cronExpression : String
  timezone : String
  targetType : String
  targetPayload : String
  isEnabled : Bool
  lastRunAt : Option ℤ
  nextRunAt : ℤ
deriving DecidableEq, Repr

/-- A row of `tasks.executions`. -/
structure Execution where
  jobID : Option JobID
  status : Status
  runAt : ℤ
  payload : String
  attempts : ℤ
  maxAttempts : ℤ
  lockedAt : Option ℤ
  lockedBy : Option String
  lastError : Option String
  createdAt : ℤ
deriving DecidableEq, Repr

/-- The row that `TriggerExecution` and `PollOnce` insert. -/
def newExecution (now : ℤ) (jobID : Option JobID) (payload : String) (maxAttempts : ℤ) :
    Execution where
  jobID := jobID
  status := .pending
  runAt := now
  payload := payload
  attempts := 0
  maxAttempts := maxAttempts
  lockedAt := none
  lockedBy := none
  lastError := none
  createdAt := now

/-- `ON DELETE SET NULL` of an execution's job. -/
def Execution.unlink (execution : Execution) : Execution := { execution with jobID := none }

/-- What an attempt at an execution comes to: its payload does not parse, or the dispatcher ran
it as SQL or as an HTTP request. -/
inductive Attempt
  | invalidPayload (message : String)
  | sql (error : Option String) (isTransient : Bool)
  | http (status : Option ℤ) (isClientError : Bool) (error : Option String)
deriving DecidableEq, Repr

/-- `execErr`: a response outside 200 to 299 is an error too. -/
def Attempt.error : Attempt → Option String
  | invalidPayload message => some message
  | sql error _ => error
  | http _ _ (some error) => some error
  | http (some status) _ none =>
    if status < 200 ∨ status ≥ 300 then
      some ("http error: status " ++ String.ofList (Strconv.formatInt status))
    else none
  | http none _ none => none

/-- `isPermanentClientError`. -/
def Attempt.isPermanentClientError : Attempt → Bool
  | invalidPayload _ => true
  | sql error isTransient => error.isSome && !isTransient
  | http _ isClientError _ => isClientError

/-- The update that records the outcome of an attempt: completed, pending for a retry after the
delay, or failed for good. The number of attempts is that of the dequeued copy. -/
def recordOutcome (now delay : ℤ) (dequeued : Execution) (attempt : Attempt) (row : Execution) :
    Execution :=
  match attempt.error with
  | none => { row with status := .completed, lockedAt := none, lockedBy := none }
  | some message =>
    let nextAttempt := dequeued.attempts + 1
    if !attempt.isPermanentClientError ∧ nextAttempt < dequeued.maxAttempts then
      { row with
        status := .pending
        attempts := nextAttempt
        runAt := now + delay
        lockedAt := none
        lockedBy := none
        lastError := some message }
    else
      { row with
        status := .failed
        attempts := nextAttempt
        lockedAt := none
        lockedBy := none
        lastError := some message }

/-- The update of `RetryDLQExecution`. -/
def requeued (now : ℤ) (row : Execution) : Execution :=
  { row with
    status := .pending
    runAt := now
    attempts := 0
    lastError := none
    lockedAt := none
    lockedBy := none }

end Layr.Tasks
