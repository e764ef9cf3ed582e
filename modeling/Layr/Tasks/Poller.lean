import Layr.Tasks.CronOccurrences
import Layr.Tasks.Model

/-!
# Pollers (`tasks/poller.go`)

Any number of pollers on one database. A poll is a transaction: its `SELECT ... FOR UPDATE SKIP
LOCKED` locks the due jobs that no other poll has locked, each is scheduled by an insert and an
update, and nothing of that is seen before the commit. A statement that fails aborts the
transaction, and a poll may end at any point. The clocks are not assumed to agree.

The history is the value of `next_run_at` that each execution was created for, and the values that
each job has moved on from.
-/

namespace Layr.Tasks.Poller

open Go

/-! ## The next run of a due job -/

section

variable (schedule : CronSchedule) (location : Time.Location) (now : ℤ) (fuel : ℕ)

/-- `newNextRunAt`: `Next` of the stored value, and of the result as long as that is before now.
Nothing as long as a loop runs. -/
def newNextRunAt : ℕ → ℤ → Option ℤ
  | 0, _ => none
  | turns + 1, t =>
    (schedule.next location fuel t).bind fun t' =>
      if t' < now then newNextRunAt turns t' else some t'

/-- None of the calls of `Next` returns the zero time. -/
def avoidsZero : ℕ → ℤ → Bool
  | 0, _ => true
  | turns + 1, t =>
    match schedule.next location fuel t with
    | none => true
    | some t' => t' ≠ Time.zero && (!decide (t' < now) || avoidsZero turns t')

variable {schedule location now fuel}

theorem le_newNextRunAt {turns : ℕ} {t t' : ℤ}
    (h : newNextRunAt schedule location now fuel turns t = some t') : now ≤ t' := by
  induction turns generalizing t with
  | zero => cases h
  | succ turns ih =>
    obtain ⟨u, -, h⟩ := Option.bind_eq_some_iff.mp h
    split at h
    · exact ih h
    next hle =>
      cases h
      omega

/-- With a fixed offset, every turn moves forward. -/
theorem lt_newNextRunAt {turns : ℕ} {t t' : ℤ} (hfixed : location.changes = [])
    (hzero : avoidsZero schedule location now fuel turns t)
    (h : newNextRunAt schedule location now fuel turns t = some t') : t < t' := by
  induction turns generalizing t with
  | zero => cases h
  | succ turns ih =>
    obtain ⟨u, hnext, h⟩ := Option.bind_eq_some_iff.mp h
    rw [avoidsZero, hnext] at hzero
    obtain ⟨hne, hrest⟩ := Bool.and_eq_true_iff.mp hzero
    have hlt : t < u := CronSchedule.lt_next hfixed hnext (of_decide_eq_true hne)
    split at h
    next hbefore =>
      have hrest' : avoidsZero schedule location now fuel turns u := by
        simpa [hbefore] using hrest
      have hlater := ih hrest' h
      omega
    · rwa [← Option.some.inj h]

end

/-! ## The state -/

/-- An execution, and the value of `next_run_at` it was created for. -/
structure Scheduled where
  execution : Execution
  due : ℤ
deriving DecidableEq, Repr

/-- The insert and the update of a due job in an open transaction. -/
structure Write where
  jobID : JobID
  executionID : ExecutionID
  scheduled : Scheduled
  lastRunAt : ℤ
  nextRunAt : ℤ
deriving DecidableEq, Repr

/-- An open transaction: the jobs it has locked, those of them that are still to be scheduled, as
they were read, and its writes. -/
structure Poll where
  locked : List JobID
  dueJobs : List (JobID × Job)
  writes : List Write
  aborted : Bool
deriving DecidableEq, Repr

structure State where
  now : ℤ
  jobs : Table JobID Job
  executions : Table ExecutionID Scheduled
  polls : Table ℕ Poll
  moved : JobID → List ℤ

def initial (now : ℤ) (jobs : Table JobID Job) : State where
  now := now
  jobs := jobs
  executions := .empty
  polls := .empty
  moved := fun _ => []

/-- The number of executions that were created for a job and a value of its `next_run_at`. -/
def State.createdFor (s : State) (jobID : JobID) (due : ℤ) : ℕ :=
  s.executions.rows.countP fun e => e.2.execution.jobID = some jobID && e.2.due = due

/-! ## Steps -/

/-- The steps. A poller reads its own clock when it schedules a job; `fuel` bounds the turns its
loops take. -/
inductive Label
  | wait (nanoseconds : ℕ)
  | begin (poller : ℕ)
  | schedule (poller fuel : ℕ) (now : ℤ) (executionID : ExecutionID) (maxAttempts : ℤ)
  | fail (poller : ℕ)
  | commit (poller : ℕ)
  | rollback (poller : ℕ)
deriving DecidableEq, Repr

/-- An open transaction has locked the job. -/
def State.isLocked (s : State) (jobID : JobID) : Bool :=
  s.polls.rows.any fun e => e.2.locked.contains jobID

/-- The jobs that `SELECT ... FOR UPDATE SKIP LOCKED` returns. -/
def State.selected (s : State) : List (JobID × Job) :=
  s.jobs.rows.filter fun e => e.2.isEnabled && e.2.nextRunAt ≤ s.now && !s.isLocked e.1

/-- One write that becomes visible. -/
def State.apply (s : State) (write : Write) : Option State :=
  (s.executions.insert write.executionID write.scheduled).map fun executions =>
    { s with
      executions := executions
      jobs := s.jobs.update write.jobID fun job =>
        { job with lastRunAt := some write.lastRunAt, nextRunAt := write.nextRunAt }
      moved := Function.update s.moved write.jobID
        ((s.jobs.get write.jobID).toList.map Job.nextRunAt ++ s.moved write.jobID) }

/-- The writes of a transaction that becomes visible. -/
def State.applyAll (s : State) : List Write → Option State
  | [] => some s
  | write :: writes => (s.apply write).bind fun s => s.applyAll writes

section

variable (loadLocation : String → Option Time.Location)

/-- `timezoneLocation`. -/
def timezoneLocation (job : Job) : Time.Location := (loadLocation job.timezone).getD .utc

/-- The write for a due job, if its expression parses; nothing as long as a loop runs. -/
def scheduleJob (s : State) (jobID : JobID) (job : Job) (fuel : ℕ) (now : ℤ)
    (executionID : ExecutionID) (maxAttempts : ℤ) : Option (List Write) :=
  match parseCron job.cronExpression with
  | .error _ => some []
  | .ok schedule =>
    (newNextRunAt schedule (timezoneLocation loadLocation job) now fuel fuel job.nextRunAt).map
      fun nextRunAt =>
        [{ jobID := jobID
           executionID := executionID
           scheduled :=
             ⟨newExecution s.now (some jobID) job.targetPayload maxAttempts, job.nextRunAt⟩
           lastRunAt := s.now
           nextRunAt := nextRunAt }]

/-- One step. -/
def step (s : State) : Label → Option State
  | .wait nanoseconds => some { s with now := s.now + nanoseconds }
  | .begin poller =>
    (s.polls.insert poller ⟨s.selected.map Prod.fst, s.selected, [], false⟩).map fun polls =>
      { s with polls := polls }
  | .schedule poller fuel now executionID maxAttempts =>
    (s.polls.get poller).bind fun poll =>
      match poll.dueJobs with
      | [] => none
      | (jobID, job) :: dueJobs =>
        (scheduleJob loadLocation s jobID job fuel now executionID maxAttempts).map fun writes =>
          { s with polls := s.polls.update poller fun poll =>
              { poll with dueJobs := dueJobs, writes := poll.writes ++ writes } }
  | .fail poller =>
    (s.polls.get poller).map fun _ =>
      { s with polls := s.polls.update poller fun poll => { poll with aborted := true } }
  | .commit poller =>
    (s.polls.get poller).bind fun poll =>
      if poll.dueJobs ≠ [] then none
      else if poll.aborted then some { s with polls := s.polls.delete poller }
      else State.applyAll { s with polls := s.polls.delete poller } poll.writes
  | .rollback poller =>
    (s.polls.get poller).map fun _ => { s with polls := s.polls.delete poller }

/-- When a job is scheduled, the poller's clock is past the stored value, or the job's location has
one offset and `Next` finds an occurrence each time. -/
def isRegular (s : State) : Label → Bool
  | .schedule poller fuel now _ _ =>
    match (s.polls.get poller).bind fun poll => poll.dueJobs.head? with
    | some (_, job) =>
      job.nextRunAt < now ||
        match parseCron job.cronExpression with
        | .error _ => true
        | .ok schedule =>
          (timezoneLocation loadLocation job).changes = [] &&
            avoidsZero schedule (timezoneLocation loadLocation job) now fuel fuel job.nextRunAt
    | none => true
  | _ => true

end

/-! ## Scheduling once -/

/-- Every value that a job's `next_run_at` has moved on from has one execution, any other value
none, and the values increase. -/
def ExactlyOnce (s : State) : Prop :=
  ∀ jobID job, s.jobs.get jobID = some job →
    (∀ due, s.createdFor jobID due = if due ∈ s.moved jobID then 1 else 0) ∧
      (job.nextRunAt :: s.moved jobID).Pairwise (· > ·)

end Layr.Tasks.Poller
