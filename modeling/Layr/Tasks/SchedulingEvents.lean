import Layr.Tasks.Poller

/-!
# Scheduling events (`tasks/poller.go`)

`PollOnce` publishes the events of a job as soon as its insert and its update have succeeded, while
the statements of later jobs and the commit can still fail. A statement that fails aborts the
transaction: every statement behind it fails too, and nothing is committed.
-/

namespace Layr.Tasks.Poller

open Go

/-- A due job as `PollOnce` meets it: what `LoadLocation` answers, the poller's clock and the turns
that its loop may take, the database's clock, the identifier drawn for the execution, and whether
the insert and the update would succeed by themselves. -/
structure Turn where
  jobID : JobID
  job : Job
  location : Option Time.Location
  now : ℤ
  fuel : ℕ
  databaseNow : ℤ
  executionID : ExecutionID
  inserts : Bool
  updates : Bool

inductive Event
  | jobScheduled (jobID : JobID) (job : Job) (previousRunAt nextRunAt : ℤ)
  | executionEnqueued (executionID : ExecutionID) (execution : Execution) (jobName : String)
      (isImmediate : Bool)
deriving DecidableEq

/-- The transaction of a poll, and the events published so far. -/
structure Batch where
  executions : List (ExecutionID × Execution) := []
  nextRuns : List (JobID × ℤ) := []
  aborted : Bool := false
  events : List Event := []
  scheduledCount : ℕ := 0

/-- The value for the update: `some none` where the expression does not parse, and nothing as long
as the loop runs. -/
def Turn.nextRunAt (turn : Turn) : Option (Option ℤ) :=
  match parseCron turn.job.cronExpression with
  | .error _ => some none
  | .ok schedule =>
    (newNextRunAt schedule (turn.location.getD .utc) turn.now turn.fuel turn.fuel
      turn.job.nextRunAt).map some

variable (maxAttempts : ℤ)

/-- The insert, the update and the events of a due job. -/
def Batch.schedule (batch : Batch) (turn : Turn) (nextRunAt : ℤ) : Batch :=
  let execution := newExecution turn.databaseNow (some turn.jobID) turn.job.targetPayload
    maxAttempts
  if batch.aborted || !turn.inserts then { batch with aborted := true }
  else
    let batch := { batch with executions := batch.executions ++ [(turn.executionID, execution)] }
    if !turn.updates then { batch with aborted := true }
    else
      { batch with
        nextRuns := batch.nextRuns ++ [(turn.jobID, nextRunAt)]
        scheduledCount := batch.scheduledCount + 1
        events := batch.events ++
          [.jobScheduled turn.jobID turn.job turn.job.nextRunAt nextRunAt,
            .executionEnqueued turn.executionID execution turn.job.name false] }

/-- The loop over the due jobs, and whether it comes to its end. -/
def Batch.scheduleAll : Batch → List Turn → Batch × Bool
  | batch, [] => (batch, true)
  | batch, turn :: turns =>
    match turn.nextRunAt with
    | none => (batch, false)
    | some none => batch.scheduleAll turns
    | some (some nextRunAt) => (batch.schedule maxAttempts turn nextRunAt).scheduleAll turns

/-- The events of a poll, the executions that it commits, and what it returns if it does. -/
structure Outcome where
  events : List Event
  committed : List (ExecutionID × Execution)
  result : Option (Except String ℕ)

/-- `PollOnce`, from whether the transaction begins, the query succeeds and the commit would. -/
def pollOnce (begins queries commits : Bool) (turns : List Turn) : Outcome :=
  if !begins then ⟨[], [], some (.error "failed to begin transaction")⟩
  else if !queries then ⟨[], [], some (.error "failed to query due jobs")⟩
  else if turns.isEmpty then ⟨[], [], some (.ok 0)⟩
  else
    let (batch, ends) := Batch.scheduleAll maxAttempts {} turns
    if !ends then ⟨batch.events, [], none⟩
    else if batch.aborted || !commits then
      ⟨batch.events, [], some (.error "failed to commit scheduling transaction")⟩
    else ⟨batch.events, batch.executions, some (.ok batch.scheduledCount)⟩

/-! ## Truthful events -/

/-- The execution that an event is about is among the rows. -/
def Event.Names (rows : List (ExecutionID × Execution)) : Event → Prop
  | jobScheduled jobID _ _ _ => ∃ row ∈ rows, row.2.jobID = some jobID
  | executionEnqueued executionID execution _ _ => (executionID, execution) ∈ rows

def Outcome.Truthful (outcome : Outcome) : Prop :=
  ∀ event ∈ outcome.events, event.Names outcome.committed

/-- The job is passed over. -/
def Turn.skips (turn : Turn) : Bool := turn.nextRunAt = some none

/-- The loop for the next run ends and both statements succeed. -/
def Turn.succeeds (turn : Turn) : Bool :=
  turn.nextRunAt.any Option.isSome && turn.inserts && turn.updates

theorem Event.Names.append {rows : List (ExecutionID × Execution)} {event : Event}
    (h : event.Names rows) (rows' : List (ExecutionID × Execution)) :
    event.Names (rows ++ rows') := by
  cases event with
  | jobScheduled =>
    obtain ⟨row, hrow, hjob⟩ := h
    exact ⟨row, List.mem_append_left _ hrow, hjob⟩
  | executionEnqueued => exact List.mem_append_left _ h

theorem Event.not_names_nil (event : Event) : ¬event.Names [] := by
  cases event <;> simp [Names]

namespace Batch

variable {batch : Batch}

theorem names_schedule (h : ∀ event ∈ batch.events, event.Names batch.executions) (turn : Turn)
    (nextRunAt : ℤ) :
    ∀ event ∈ (batch.schedule maxAttempts turn nextRunAt).events,
      event.Names (batch.schedule maxAttempts turn nextRunAt).executions := by
  unfold schedule
  dsimp only
  split_ifs
  · exact h
  · exact fun event hevent => (h event hevent).append _
  · intro event hevent
    simp only [List.mem_append, List.mem_cons, List.not_mem_nil, or_false] at hevent
    rcases hevent with hevent | rfl | rfl
    · exact (h event hevent).append _
    · exact ⟨_, List.mem_append_right _ (List.mem_singleton_self _), rfl⟩
    · exact List.mem_append_right _ (List.mem_singleton_self _)

/-- Every published event names a row of the transaction. -/
theorem names_scheduleAll (batch : Batch) (turns : List Turn)
    (h : ∀ event ∈ batch.events, event.Names batch.executions) :
    ∀ event ∈ (batch.scheduleAll maxAttempts turns).1.events,
      event.Names (batch.scheduleAll maxAttempts turns).1.executions := by
  fun_induction scheduleAll with
  | case1 | case2 => exact h
  | case3 batch turn turns hnext ih => exact ih h
  | case4 batch turn turns nextRunAt hnext ih =>
    exact ih (names_schedule maxAttempts h turn nextRunAt)

/-- The loop comes to its end without a failure where each job is passed over or succeeds, and it
publishes nothing where the first that is not passed over does not succeed. -/
theorem scheduleAll_spec (batch : Batch) (turns : List Turn) :
    ((batch.scheduleAll maxAttempts turns).2 ∧
        (batch.scheduleAll maxAttempts turns).1.aborted = false ↔
      batch.aborted = false ∧ ∀ turn ∈ turns, turn.skips ∨ turn.succeeds) ∧
    ((batch.scheduleAll maxAttempts turns).1.events = [] ↔
      batch.events = [] ∧ (batch.aborted ∨
        ∀ turn ∈ turns.find? fun turn => !turn.skips, turn.succeeds = false)) := by
  fun_induction scheduleAll with
  | case1 => simp
  | case2 batch turn turns hnext => simp [Turn.skips, Turn.succeeds, hnext]
  | case3 batch turn turns hnext ih => simp [ih, Turn.skips, hnext]
  | case4 batch turn turns nextRunAt hnext ih =>
    rw [ih.1, ih.2]
    unfold schedule
    cases batch.aborted <;> cases hinserts : turn.inserts <;> cases hupdates : turn.updates <;>
      simp [Turn.skips, Turn.succeeds, hnext, hinserts, hupdates]

end Batch

/-- Where nothing is committed, truthful events are none at all. -/
theorem truthful_uncommitted (events : List Event) (result : Option (Except String ℕ)) :
    Outcome.Truthful ⟨events, [], result⟩ ↔ events = [] := by
  rw [List.eq_nil_iff_forall_not_mem]
  exact forall₂_congr fun event _ => iff_false_intro event.not_names_nil

/-- The events of a poll are truthful where none is published, since the transaction does not get
as far or the first job with a valid expression fails, and where nothing fails at all. -/
theorem truthful_iff (begins queries commits : Bool) (turns : List Turn) :
    (pollOnce maxAttempts begins queries commits turns).Truthful ↔
      begins = false ∨ queries = false ∨
      (∀ turn ∈ turns.find? fun turn => !turn.skips, turn.succeeds = false) ∨
      commits ∧ ∀ turn ∈ turns, turn.skips ∨ turn.succeeds := by
  have hnames := Batch.names_scheduleAll maxAttempts {} turns (by simp)
  obtain ⟨hclean, hevents⟩ := Batch.scheduleAll_spec maxAttempts {} turns
  simp only [true_and, Bool.false_eq_true, false_or] at hclean hevents
  unfold pollOnce
  cases begins with
  | false => simp [truthful_uncommitted]
  | true =>
  cases queries with
  | false => simp [truthful_uncommitted]
  | true =>
  cases turns with
  | nil => simp [truthful_uncommitted]
  | cons turn turns =>
  rw [← hevents, ← hclean]
  clear hevents hclean
  generalize Batch.scheduleAll maxAttempts {} (turn :: turns) = run at hnames
  obtain ⟨batch, ends⟩ := run
  have htruthful (result) : Outcome.Truthful ⟨batch.events, batch.executions, result⟩ := hnames
  cases ends <;> cases haborted : batch.aborted <;> cases commits <;>
    simp [truthful_uncommitted, haborted, htruthful]

/-- A nightly job that is due. -/
def sampleTurn : Turn where
  jobID := 0
  job := ⟨"nightly", "30 3 * * *", "UTC", "sql", "", true, none, 12600 * Time.second⟩
  location := some .utc
  now := 12600 * Time.second
  fuel := 100
  databaseNow := 12600 * Time.second
  executionID := 7
  inserts := true
  updates := true

/-- The events of the job are published, and the commit fails. -/
theorem sampleTurn_not_truthful : ¬(pollOnce 3 true true false [sampleTurn]).Truthful := by
  intro h
  have hevent : .executionEnqueued 7 (newExecution (12600 * Time.second) (some 0) "" 3) "nightly"
      false ∈ (pollOnce 3 true true false [sampleTurn]).events := by decide +kernel
  have hcommitted : (pollOnce 3 true true false [sampleTurn]).committed = [] := by decide +kernel
  exact Event.not_names_nil _ (hcommitted ▸ h _ hevent)

end Layr.Tasks.Poller
