import Layr.Lib.Runs
import Layr.Tasks.Model

/-!
# The task queue (`tasks/worker.go`, `tasks/job_manager.go`)

Workers, pollers and the calls of the control plane on the tables of jobs and executions. One
step is one SQL statement or transaction; what a call has read and not yet acted upon is part of
the state, as is every execution that a worker has dequeued. A worker may stop, and a call may
end, between any two of its statements. The history counts the dispatches of each execution since
it was last enqueued by the control plane or a poller.
-/

namespace Layr.Tasks

/-! ## The state -/

/-- How far `processExecution` has come. -/
inductive Phase
  | fetched
  | dispatching
  | attempted (attempt : Attempt)
deriving DecidableEq, Repr

/-- A call of `processExecution`, with the execution as it was dequeued. -/
structure Worker where
  executionID : ExecutionID
  execution : Execution
  phase : Phase
deriving DecidableEq, Repr

/-- A call of the control plane between two of its statements. -/
inductive Request
  /-- `TriggerExecution` has read the job -/
  | triggering (jobID : Option JobID) (payload : String)
  /-- `RetryDLQExecution` has found the execution failed -/
  | retrying (executionID : ExecutionID)
  /-- `DeleteJob` has read the job -/
  | cancelling (jobID : JobID)
  /-- `DeleteJob` has deleted the pending executions -/
  | deleting (jobID : JobID)
deriving DecidableEq, Repr

variable {next : Request} {request worker : ℕ}

/-- The dispatches of an execution since it was enqueued, and its `max_attempts`. -/
structure Dispatches where
  count : ℕ
  maxAttempts : ℤ
deriving DecidableEq, Repr

structure State where
  now : ℤ
  jobs : Table JobID Job
  executions : Table ExecutionID Execution
  workers : Table ℕ Worker
  requests : Table ℕ Request
  history : ExecutionID → Dispatches

/-- The start: jobs, and nothing enqueued. -/
def initial (jobs : Table JobID Job) : State where
  now := 0
  jobs := jobs
  executions := .empty
  workers := .empty
  requests := .empty
  history := fun _ => ⟨0, 0⟩

/-- `TriggerExecutionInput`. -/
structure TriggerExecutionInput where
  jobID : Option JobID
  payload : Option String
deriving DecidableEq, Repr

/-! ## Steps -/

/-- The steps. Worker and request numbers are those of goroutines; the identifier of a new row is
the one the database draws, and the delay of a retry the one `CalculateTaskBackoff` returns. -/
inductive Label
  | wait (nanoseconds : ℕ)
  | poll (jobID : JobID) (executionID : ExecutionID) (nextRunAt maxAttempts : ℤ)
  | dequeue (worker : ℕ) (executionID : ExecutionID) (nodeID : String)
  | dispatch (worker : ℕ)
  | attempted (worker : ℕ) (attempt : Attempt)
  | record (worker : ℕ) (delay : ℤ)
  | stop (worker : ℕ)
  | trigger (request : ℕ) (input : TriggerExecutionInput)
  | enqueue (request : ℕ) (executionID : ExecutionID) (maxAttempts : ℤ)
  | retry (request : ℕ) (executionID : ExecutionID)
  | requeue (request : ℕ)
  | purge (executionID : ExecutionID)
  | deleteJob (request : ℕ) (jobID : JobID)
  | cancelPending (request : ℕ)
  | removeJob (request : ℕ)
  | abandon (request : ℕ)
deriving DecidableEq, Repr

/-- A pending execution that is due. -/
def Execution.isDue (now : ℤ) (execution : Execution) : Bool :=
  execution.status = .pending && execution.runAt ≤ now

/-- `ORDER BY run_at ASC LIMIT 1` among the executions that are due. -/
def State.isNext (s : State) (execution : Execution) : Bool :=
  execution.isDue s.now &&
    s.executions.rows.all fun e => !e.2.isDue s.now || decide (execution.runAt ≤ e.2.runAt)

/-- The dequeued execution. -/
def Execution.locked (now : ℤ) (nodeID : String) (execution : Execution) : Execution :=
  { execution with status := .running, lockedAt := some now, lockedBy := some nodeID }

/-- `targetPayloadValue` of `TriggerExecution`. -/
def triggerPayload (input : TriggerExecutionInput) (job : Option Job) : String :=
  let payload :=
    match input.payload with
    | some payload => if payload ≠ "" then payload else (job.map Job.targetPayload).getD ""
    | none => (job.map Job.targetPayload).getD ""
  if payload = "" then "\x7b\x7d" else payload

/-- The foreign key of an execution's job. -/
def State.hasJob (s : State) : Option JobID → Bool
  | some jobID => (s.jobs.get jobID).isSome
  | none => true

/-- The executions that `PurgeDLQExecution` deletes. -/
def isPurged (id id' : ExecutionID) (execution : Execution) : Bool :=
  id' = id && execution.status = .failed

/-- The executions that `DeleteJob` deletes. -/
def isCancelled (jobID : JobID) (_ : ExecutionID) (execution : Execution) : Bool :=
  execution.jobID = some jobID && execution.status = .pending

/-- The executions that refer to a job. -/
def isLinked (jobID : JobID) (_ : ExecutionID) (execution : Execution) : Bool :=
  execution.jobID = some jobID

/-- An inserted execution, and its history. -/
def State.insertExecution (s : State) (id : ExecutionID) (execution : Execution) : Option State :=
  (s.executions.insert id execution).map fun executions =>
    { s with
      executions := executions
      history := Function.update s.history id ⟨0, execution.maxAttempts⟩ }

/-- A call that goes on to its next statement. -/
def State.await (s : State) (request : ℕ) (next : Request) : Option State :=
  (s.requests.insert request next).map fun requests => { s with requests := requests }

/-- One step. -/
def step (s : State) : Label → Option State
  | .wait nanoseconds => some { s with now := s.now + nanoseconds }
  | .poll jobID id nextRunAt maxAttempts =>
    (s.jobs.get jobID).bind fun job =>
      if job.isEnabled && job.nextRunAt ≤ s.now then
        State.insertExecution
          { s with jobs := s.jobs.update jobID fun job =>
              { job with lastRunAt := some s.now, nextRunAt := nextRunAt } }
          id (newExecution s.now (some jobID) job.targetPayload maxAttempts)
      else none
  | .dequeue worker id nodeID =>
    (s.executions.get id).bind fun execution =>
      if s.isNext execution then
        (s.workers.insert worker ⟨id, execution.locked s.now nodeID, .fetched⟩).map fun workers =>
          { s with
            executions := s.executions.update id (Execution.locked s.now nodeID)
            workers := workers }
      else none
  | .dispatch worker =>
    (s.workers.get worker).bind fun w =>
      if w.phase = .fetched then
        some { s with
          workers := s.workers.update worker fun w => { w with phase := .dispatching }
          history := Function.update s.history w.executionID
            { s.history w.executionID with count := (s.history w.executionID).count + 1 } }
      else none
  | .attempted worker attempt =>
    (s.workers.get worker).bind fun w =>
      if w.phase = .dispatching then
        some { s with workers := s.workers.update worker fun w =>
          { w with phase := .attempted attempt } }
      else none
  | .record worker delay =>
    (s.workers.get worker).bind fun w =>
      match w.phase with
      | .attempted attempt =>
        some { s with
          workers := s.workers.delete worker
          executions :=
            s.executions.update w.executionID (recordOutcome s.now delay w.execution attempt) }
      | _ => none
  | .stop worker =>
    (s.workers.get worker).map fun _ => { s with workers := s.workers.delete worker }
  | .trigger request input =>
    match input.jobID with
    | some jobID =>
      (s.jobs.get jobID).bind fun job =>
        s.await request (.triggering (some jobID) (triggerPayload input (some job)))
    | none => s.await request (.triggering none (triggerPayload input none))
  | .enqueue request id maxAttempts =>
    match s.requests.get request with
    | some (.triggering jobID payload) =>
      if s.hasJob jobID then
        State.insertExecution { s with requests := s.requests.delete request } id
          (newExecution s.now jobID payload maxAttempts)
      else none
    | _ => none
  | .retry request id =>
    (s.executions.get id).bind fun execution =>
      if execution.status = .failed then s.await request (.retrying id) else none
  | .requeue request =>
    match s.requests.get request with
    | some (.retrying id) =>
      (s.executions.get id).map fun execution =>
        { s with
          requests := s.requests.delete request
          executions := s.executions.update id (requeued s.now)
          history := Function.update s.history id ⟨0, execution.maxAttempts⟩ }
    | _ => none
  | .purge id =>
    some { s with executions := s.executions.deleteWhere (isPurged id) }
  | .deleteJob request jobID =>
    (s.jobs.get jobID).bind fun _ => s.await request (.cancelling jobID)
  | .cancelPending request =>
    match s.requests.get request with
    | some (.cancelling jobID) =>
      some { s with
        requests := s.requests.update request fun _ => .deleting jobID
        executions := s.executions.deleteWhere (isCancelled jobID) }
    | _ => none
  | .removeJob request =>
    match s.requests.get request with
    | some (.deleting jobID) =>
      some { s with
        requests := s.requests.delete request
        jobs := s.jobs.delete jobID
        executions := s.executions.updateWhere (isLinked jobID) Execution.unlink }
    | _ => none
  | .abandon request =>
    (s.requests.get request).map fun _ => { s with requests := s.requests.delete request }

/-! ## What a step can do -/

/-- The execution that a step inserts, and its job. -/
def State.inserted (s : State) : Label → Option (ExecutionID × Option JobID)
  | .poll jobID id _ _ => some (id, some jobID)
  | .enqueue request id _ =>
    match s.requests.get request with
    | some (.triggering jobID _) => some (id, jobID)
    | _ => none
  | _ => none

/-- The job that a step deletes, the last one of `DeleteJob`. -/
def State.removed (s : State) : Label → Option JobID
  | .removeJob request =>
    match s.requests.get request with
    | some (.deleting jobID) => some jobID
    | _ => none
  | _ => none

/-- The workers that hold an execution stay as they are. -/
def SameWorkers (id : ExecutionID) (s s' : State) : Prop :=
  ∀ worker w, w.executionID = id →
    (s'.workers.get worker = some w ↔ s.workers.get worker = some w)

/-- The workers after a change of one of them. -/
def ChangedWorker (worker : ℕ) (w' : Option Worker) (s s' : State) : Prop :=
  ∀ k, s'.workers.get k = if k = worker then w' else s.workers.get k

/-- What a step does to an execution, its history and the workers that hold it. -/
inductive EffectAt (id : ExecutionID) (s : State) (label : Label) (s' : State) : Prop
  | same (hrow : s'.executions.get id = s.executions.get id)
      (hhistory : s'.history id = s.history id) (hworkers : SameWorkers id s s')
  | fetch {worker : ℕ} {nodeID : String} {e : Execution} (hrow : s.executions.get id = some e)
      (hpending : e.status = .pending) (hrow' : s'.executions.get id = some (e.locked s.now nodeID))
      (hhistory : s'.history id = s.history id)
      (hworkers : ChangedWorker worker (some ⟨id, e.locked s.now nodeID, .fetched⟩) s s')
  | start {worker : ℕ} {w : Worker} (hworker : s.workers.get worker = some w)
      (hid : w.executionID = id) (hphase : w.phase = .fetched)
      (hrow : s'.executions.get id = s.executions.get id)
      (hhistory : s'.history id = { s.history id with count := (s.history id).count + 1 })
      (hworkers : ChangedWorker worker (some { w with phase := .dispatching }) s s')
  | returned {worker : ℕ} {w : Worker} {attempt : Attempt} (hworker : s.workers.get worker = some w)
      (hid : w.executionID = id) (hphase : w.phase = .dispatching)
      (hrow : s'.executions.get id = s.executions.get id)
      (hhistory : s'.history id = s.history id)
      (hworkers : ChangedWorker worker (some { w with phase := .attempted attempt }) s s')
  | record {worker : ℕ} {w : Worker} {attempt : Attempt} {delay : ℤ}
      (hworker : s.workers.get worker = some w) (hid : w.executionID = id)
      (hphase : w.phase = .attempted attempt)
      (hrow : s'.executions.get id =
        (s.executions.get id).map (recordOutcome s.now delay w.execution attempt))
      (hhistory : s'.history id = s.history id) (hworkers : ChangedWorker worker none s s')
      (hlabel : label = .record worker delay)
  | stop {worker : ℕ} (hlabel : label = .stop worker)
      (hrow : s'.executions.get id = s.executions.get id)
      (hhistory : s'.history id = s.history id) (hworkers : ChangedWorker worker none s s')
  | insert {jobID : Option JobID} {payload : String} {maxAttempts : ℤ}
      (hrow : s.executions.get id = none)
      (hrow' : s'.executions.get id = some (newExecution s.now jobID payload maxAttempts))
      (hhistory : s'.history id = ⟨0, maxAttempts⟩) (hworkers : SameWorkers id s s')
      (hlabel : s.inserted label = some (id, jobID))
  | requeue {request : ℕ} {e : Execution} (hlabel : label = .requeue request)
      (hrequest : s.requests.get request = some (.retrying id))
      (hrow : s.executions.get id = some e) (hrow' : s'.executions.get id = some (requeued s.now e))
      (hhistory : s'.history id = ⟨0, e.maxAttempts⟩) (hworkers : SameWorkers id s s')
  | remove {e : Execution} (hrow : s.executions.get id = some e) (hidle : e.status ≠ .running)
      (hrow' : s'.executions.get id = none) (hhistory : s'.history id = s.history id)
      (hworkers : SameWorkers id s s')
  | unlink {e : Execution} {jobID : JobID} (hrow : s.executions.get id = some e)
      (hrow' : s'.executions.get id = some e.unlink) (hhistory : s'.history id = s.history id)
      (hworkers : SameWorkers id s s') (hjob : e.jobID = some jobID)
      (hlabel : s.removed label = some jobID)

/-- The calls of `RetryDLQExecution` that are about to update an execution were so before, or have
just found it failed. -/
def RetriesFailed (s s' : State) : Prop :=
  ∀ request id, s'.requests.get request = some (.retrying id) →
    s.requests.get request = some (.retrying id) ∨
      ∃ e, s.executions.get id = some e ∧ e.status = .failed

theorem retriesFailed_of_eq {s s' : State} (h : s'.requests = s.requests) :
    RetriesFailed s s' := by
  intro request id hretrying
  rw [h] at hretrying
  exact .inl hretrying

theorem retriesFailed_of_delete {s s' : State} (h : s'.requests = s.requests.delete request) :
    RetriesFailed s s' := by
  intro request' id hretrying
  rw [h] at hretrying
  exact .inl (Table.get_of_delete hretrying).2

/-- A request that waits to put an execution back has read it as failed. -/
theorem retriesFailed_of_await {s s' : State} (h : s.await request next = some s')
    (hnext : ∀ id, next = .retrying id → ∃ e, s.executions.get id = some e ∧ e.status = .failed) :
    RetriesFailed s s' := by
  intro request' id hretrying
  obtain ⟨requests, hinsert, rfl⟩ := Option.map_eq_some_iff.mp h
  rw [Table.get_insert hinsert] at hretrying
  split at hretrying
  · exact .inr (hnext id (Option.some.inj hretrying))
  · exact .inl hretrying

/-- No job comes back. -/
def JobsStay (s s' : State) : Prop := ∀ jobID, s.jobs.get jobID = none → s'.jobs.get jobID = none

/-- What a step does. -/
structure Effect (s : State) (label : Label) (s' : State) : Prop where
  execution (id : ExecutionID) : EffectAt id s label s'
  retries : RetriesFailed s s'
  jobs : JobsStay s s'

section

variable {id : ExecutionID} {s s' : State} {label : Label}

theorem sameWorkers_of_eq (h : s'.workers = s.workers) : SameWorkers id s s' := by
  intro worker w _
  rw [h]

/-- A worker behind a change of one of them. -/
theorem ChangedWorker.cases {w : Worker} {w' : Option Worker} {k : ℕ}
    (h : ChangedWorker worker w' s s') (hk : s'.workers.get k = some w) :
    k = worker ∧ w' = some w ∨ k ≠ worker ∧ s.workers.get k = some w := by
  rw [h k] at hk
  split at hk
  next heq => exact .inl ⟨heq, hk⟩
  next hne => exact .inr ⟨hne, hk⟩

/-- A worker that changes, and holds another execution before and after. -/
theorem ChangedWorker.same {w' : Option Worker} (h : ChangedWorker worker w' s s')
    (hold : ∀ w ∈ s.workers.get worker, w.executionID ≠ id)
    (hnew : ∀ w ∈ w', w.executionID ≠ id) : SameWorkers id s s' := by
  intro k w hid
  rw [h k]
  by_cases heq : k = worker
  · rw [if_pos heq, heq]
    exact ⟨fun hw => absurd hid (hnew w hw), fun hw => absurd hid (hold w hw)⟩
  · rw [if_neg heq]

theorem changedWorker_insert {w : Worker} (h : s.workers.insert worker w = some s'.workers) :
    ChangedWorker worker (some w) s s' := fun k => Table.get_insert h k

theorem changedWorker_phase {w : Worker} {phase : Phase} (hworker : s.workers.get worker = some w)
    (h : s'.workers = s.workers.update worker fun w => { w with phase := phase }) :
    ChangedWorker worker (some { w with phase := phase }) s s' := by
  intro k
  rw [h, Table.get_update]
  by_cases heq : k = worker
  · rw [if_pos heq, if_pos heq, heq, hworker, Option.map_some]
  · rw [if_neg heq, if_neg heq]

theorem changedWorker_delete (h : s'.workers = s.workers.delete worker) :
    ChangedWorker worker none s s' := by
  intro k
  rw [h, Table.get_delete]

theorem effect_of_await (h : s.await request next = some s')
    (hnext : ∀ id, next = .retrying id → ∃ e, s.executions.get id = some e ∧ e.status = .failed) :
    Effect s label s' := by
  refine ⟨fun id => ?_, retriesFailed_of_await h hnext, ?_⟩
  · obtain ⟨requests, -, rfl⟩ := Option.map_eq_some_iff.mp h
    exact .same rfl rfl (sameWorkers_of_eq rfl)
  · obtain ⟨requests, -, rfl⟩ := Option.map_eq_some_iff.mp h
    exact fun _ hjob => hjob

theorem insertExecution_eq_some {s s' : State} {id : ExecutionID} {e : Execution}
    (h : s.insertExecution id e = some s') :
    s.executions.insert id e = some s'.executions ∧ s'.workers = s.workers ∧
      s'.history = Function.update s.history id ⟨0, e.maxAttempts⟩ ∧ s'.requests = s.requests ∧
      s'.jobs = s.jobs := by
  obtain ⟨executions, hinsert, rfl⟩ := Option.map_eq_some_iff.mp h
  exact ⟨hinsert, rfl, rfl, rfl, rfl⟩

theorem effectAt_insert {id' : ExecutionID} {jobID : Option JobID} {payload : String}
    {maxAttempts : ℤ} (hlabel : s.inserted label = some (id', jobID))
    (hexecutions : s.executions.insert id' (newExecution s.now jobID payload maxAttempts) =
      some s'.executions)
    (hworkers : s'.workers = s.workers)
    (hhistory : s'.history = Function.update s.history id' ⟨0, maxAttempts⟩) (id : ExecutionID) :
    EffectAt id s label s' := by
  have hsame : SameWorkers id s s' := sameWorkers_of_eq hworkers
  by_cases hid : id = id'
  · subst hid
    have hrow' := (Table.get_insert hexecutions id).trans (if_pos rfl)
    refine .insert (Table.get_eq_none_of_insert hexecutions) hrow' ?_ hsame hlabel
    rw [hhistory, Function.update_self]
  · refine .same ?_ ?_ hsame
    · rw [Table.get_insert hexecutions, if_neg hid]
    · rw [hhistory, Function.update_of_ne hid]

/-- The executions that are deleted are not running. -/
theorem effectAt_deleteWhere {p : ExecutionID → Execution → Bool}
    (hp : ∀ id e, p id e → e.status ≠ .running)
    (hexecutions : s'.executions = s.executions.deleteWhere p)
    (hworkers : s'.workers = s.workers) (hhistory : s'.history = s.history) (id : ExecutionID) :
    EffectAt id s label s' := by
  have hsame : SameWorkers id s s' := sameWorkers_of_eq hworkers
  have hrow' : s'.executions.get id = (s.executions.get id).filter fun e => !p id e := by
    rw [hexecutions, Table.get_deleteWhere]
  cases hrow : s.executions.get id with
  | none => exact .same (by rw [hrow', hrow]; rfl) (by rw [hhistory]) hsame
  | some e =>
    rw [hrow, Option.filter_some] at hrow'
    cases hcond : p id e with
    | true =>
      rw [hcond] at hrow'
      exact .remove hrow (hp id e hcond) hrow' (by rw [hhistory]) hsame
    | false =>
      rw [hcond] at hrow'
      exact .same (hrow'.trans hrow.symm) (by rw [hhistory]) hsame

/-- The row that is taken was pending, and no other row changes. -/
theorem effect_dequeue {id' : ExecutionID} {nodeID : String}
    (h : step s (.dequeue worker id' nodeID) = some s') :
    Effect s (.dequeue worker id' nodeID) s' := by
  obtain ⟨e, hrow, h⟩ := Option.bind_eq_some_iff.mp h
  obtain ⟨hnext, h⟩ := Option.ite_none_right_eq_some.mp h
  obtain ⟨workers, hinsert, rfl⟩ := Option.map_eq_some_iff.mp h
  have hpending : e.status = .pending := by
    simp only [State.isNext, Execution.isDue, Bool.and_eq_true, decide_eq_true_eq] at hnext
    exact hnext.1.1
  refine ⟨fun id => ?_, retriesFailed_of_eq rfl, fun _ hjob => hjob⟩
  by_cases hid : id = id'
  · subst hid
    exact .fetch hrow hpending (Table.get_update_self hrow _) rfl (changedWorker_insert hinsert)
  · refine .same ((Table.get_update ..).trans (if_neg hid)) rfl
      (ChangedWorker.same (changedWorker_insert hinsert) ?_ ?_)
    · simp [Table.get_eq_none_of_insert hinsert]
    · simpa using Ne.symm hid

theorem effect_dispatch (h : step s (.dispatch worker) = some s') :
    Effect s (.dispatch worker) s' := by
  obtain ⟨w, hworker, h⟩ := Option.bind_eq_some_iff.mp h
  obtain ⟨hphase, h⟩ := Option.ite_none_right_eq_some.mp h
  cases h
  refine ⟨fun id => ?_, retriesFailed_of_eq rfl, fun _ hjob => hjob⟩
  by_cases hid : w.executionID = id
  · subst hid
    exact .start hworker rfl hphase rfl (Function.update_self _ _ _)
      (changedWorker_phase hworker rfl)
  · exact .same rfl (Function.update_of_ne (Ne.symm hid) _ _)
      (ChangedWorker.same (changedWorker_phase hworker rfl) (by simpa [hworker]) (by simpa))

theorem effect_attempted {attempt : Attempt} (h : step s (.attempted worker attempt) = some s') :
    Effect s (.attempted worker attempt) s' := by
  obtain ⟨w, hworker, h⟩ := Option.bind_eq_some_iff.mp h
  obtain ⟨hphase, h⟩ := Option.ite_none_right_eq_some.mp h
  cases h
  refine ⟨fun id => ?_, retriesFailed_of_eq rfl, fun _ hjob => hjob⟩
  by_cases hid : w.executionID = id
  · exact .returned hworker hid hphase rfl rfl (changedWorker_phase hworker rfl)
  · exact .same rfl rfl
      (ChangedWorker.same (changedWorker_phase hworker rfl) (by simpa [hworker]) (by simpa))

/-- The worker leaves with the record, and no other row changes. -/
theorem effect_record {delay : ℤ} (h : step s (.record worker delay) = some s') :
    Effect s (.record worker delay) s' := by
  obtain ⟨w, hworker, h⟩ := Option.bind_eq_some_iff.mp h
  split at h
  next attempt hphase =>
    cases h
    refine ⟨fun id => ?_, retriesFailed_of_eq rfl, fun _ hjob => hjob⟩
    by_cases hid : w.executionID = id
    · subst hid
      exact .record hworker rfl hphase ((Table.get_update ..).trans (if_pos rfl)) rfl
        (changedWorker_delete rfl) rfl
    · exact .same ((Table.get_update ..).trans (if_neg (Ne.symm hid))) rfl
        (ChangedWorker.same (changedWorker_delete rfl) (by simpa [hworker]) (by simp))
  · cases h

/-- The update does not ask for the status again, whatever it is by now. -/
theorem effect_requeue (h : step s (.requeue request) = some s') :
    Effect s (.requeue request) s' := by
  simp only [step] at h
  split at h
  next id' hrequest =>
    obtain ⟨e, hrow, rfl⟩ := Option.map_eq_some_iff.mp h
    refine ⟨fun id => ?_, retriesFailed_of_delete rfl, fun _ hjob => hjob⟩
    by_cases hid : id = id'
    · subst hid
      exact .requeue rfl hrequest hrow (Table.get_update_self hrow _)
        (Function.update_self _ _ _) (sameWorkers_of_eq rfl)
    · exact .same ((Table.get_update ..).trans (if_neg hid)) (Function.update_of_ne hid _ _)
        (sameWorkers_of_eq rfl)
  · cases h

theorem effect_cancelPending (h : step s (.cancelPending request) = some s') :
    Effect s (.cancelPending request) s' := by
  simp only [step] at h
  split at h
  next jobID hrequest =>
    cases h
    refine ⟨effectAt_deleteWhere (p := isCancelled jobID) ?_ rfl rfl rfl, ?_, fun _ hjob => hjob⟩
    · intro id' e hp
      simp only [isCancelled, Bool.and_eq_true, decide_eq_true_eq] at hp
      rw [hp.2]
      decide
    · intro request' id hretrying
      have hget : (s.requests.update request fun _ => .deleting jobID).get request' =
          some (.retrying id) := hretrying
      rw [Table.get_update] at hget
      split at hget
      next heq =>
        rw [heq, hrequest] at hget
        cases hget
      · exact .inl hget
  · cases h

theorem effect_removeJob (h : step s (.removeJob request) = some s') :
    Effect s (.removeJob request) s' := by
  simp only [step] at h
  split at h
  next jobID hrequest =>
    cases h
    refine ⟨fun id => ?_, retriesFailed_of_delete rfl, fun jobID' hjob => ?_⟩
    · have hrow' := Table.get_updateWhere s.executions (isLinked jobID) Execution.unlink id
      cases hrow : s.executions.get id with
      | none => exact .same (hrow'.trans (by rw [hrow]; rfl)) rfl (sameWorkers_of_eq rfl)
      | some e =>
        rw [hrow, Option.map_some] at hrow'
        by_cases hlinked : isLinked jobID id e
        · rw [if_pos hlinked] at hrow'
          refine .unlink hrow hrow' rfl (sameWorkers_of_eq rfl) (of_decide_eq_true hlinked) ?_
          rw [State.removed, hrequest]
        · rw [if_neg hlinked] at hrow'
          exact .same (hrow'.trans hrow.symm) rfl (sameWorkers_of_eq rfl)
    · show (s.jobs.delete _).get jobID' = none
      rw [Table.get_delete, hjob, ite_self]
  · cases h

theorem effect_of_step (h : step s label = some s') : Effect s label s' := by
  cases label with
  | wait =>
    cases h
    exact ⟨fun _ => .same rfl rfl (sameWorkers_of_eq rfl), retriesFailed_of_eq rfl,
      fun _ hjob => hjob⟩
  | poll =>
    obtain ⟨job, -, h⟩ := Option.bind_eq_some_iff.mp h
    obtain ⟨-, h⟩ := Option.ite_none_right_eq_some.mp h
    obtain ⟨hinsert, hworkers, hhistory, hrequests, hjobs⟩ := insertExecution_eq_some h
    refine ⟨effectAt_insert rfl hinsert hworkers hhistory, retriesFailed_of_eq hrequests, ?_⟩
    intro _ hjob
    rw [hjobs, Table.get_update, hjob, Option.map_none, ite_self]
  | dequeue => exact effect_dequeue h
  | dispatch worker => exact effect_dispatch h
  | attempted => exact effect_attempted h
  | record => exact effect_record h
  | stop worker =>
    obtain ⟨w, -, rfl⟩ := Option.map_eq_some_iff.mp h
    exact ⟨fun _ => .stop rfl rfl rfl (changedWorker_delete rfl), retriesFailed_of_eq rfl,
      fun _ hjob => hjob⟩
  | trigger =>
    simp only [step] at h
    split at h
    · obtain ⟨job, -, h⟩ := Option.bind_eq_some_iff.mp h
      exact effect_of_await h (by rintro id ⟨⟩)
    · exact effect_of_await h (by rintro id ⟨⟩)
  | enqueue =>
    simp only [step] at h
    split at h
    next hrequest =>
      obtain ⟨-, h⟩ := Option.ite_none_right_eq_some.mp h
      obtain ⟨hinsert, hworkers, hhistory, hrequests, hjobs⟩ := insertExecution_eq_some h
      refine ⟨effectAt_insert ?_ hinsert hworkers hhistory, retriesFailed_of_delete hrequests,
        fun _ hjob => hjobs ▸ hjob⟩
      rw [State.inserted, hrequest]
    · cases h
  | retry =>
    obtain ⟨e, hrow, h⟩ := Option.bind_eq_some_iff.mp h
    obtain ⟨hfailed, h⟩ := Option.ite_none_right_eq_some.mp h
    refine effect_of_await h ?_
    rintro id' ⟨⟩
    exact ⟨e, hrow, hfailed⟩
  | requeue request => exact effect_requeue h
  | purge id =>
    cases h
    refine ⟨effectAt_deleteWhere (p := isPurged id) ?_ rfl rfl rfl, retriesFailed_of_eq rfl,
      fun _ hjob => hjob⟩
    intro id' e hp
    simp only [isPurged, Bool.and_eq_true, decide_eq_true_eq] at hp
    rw [hp.2]
    decide
  | deleteJob =>
    obtain ⟨job, -, h⟩ := Option.bind_eq_some_iff.mp h
    exact effect_of_await h (by rintro id ⟨⟩)
  | cancelPending request => exact effect_cancelPending h
  | removeJob request => exact effect_removeJob h
  | abandon request =>
    obtain ⟨r, -, rfl⟩ := Option.map_eq_some_iff.mp h
    exact ⟨fun _ => .same rfl rfl (sameWorkers_of_eq rfl), retriesFailed_of_delete rfl,
      fun _ hjob => hjob⟩

end

end Layr.Tasks
