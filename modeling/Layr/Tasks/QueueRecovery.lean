import Layr.Tasks.Queue

/-!
# Executions whose worker is gone

A `running` execution leaves its status only by the update of a worker that holds it, or by the
update of a `RetryDLQExecution` that found it failed before. Nothing in the service looks at
`locked_at` or picks `running` executions up again, so one whose worker has stopped stays as it
is in all later states.
-/

namespace Layr.Tasks

def Running (s : State) (id : ExecutionID) : Prop :=
  ∃ e, s.executions.get id = some e ∧ e.status = .running

/-- Some later steps, of any part of the service, end with the execution in another status or
deleted. -/
def Movable (s : State) (id : ExecutionID) : Prop :=
  ∃ s', Runs.Run step (fun _ _ => True) s s' ∧ ¬Running s' id

/-- Every running execution can be moved on. -/
def Recoverable (s : State) : Prop := ∀ id, Running s id → Movable s id

/-- A worker holds the execution, or a `RetryDLQExecution` is about to update it. -/
def Attended (s : State) (id : ExecutionID) : Prop :=
  (∃ worker w, s.workers.get worker = some w ∧ w.executionID = id) ∨
    ∃ request, s.requests.get request = some (.retrying id)

variable {s s' : State} {id : ExecutionID} {label : Label}

/-! ## Executions that nobody attends to -/

/-- A running execution that nobody attends to. -/
def Stuck (id : ExecutionID) (s : State) : Prop := Running s id ∧ ¬Attended s id

theorem Stuck.step (hstuck : Stuck id s) (h : step s label = some s') : Stuck id s' := by
  obtain ⟨⟨e, hrow, hrunning⟩, hattended⟩ := hstuck
  have hworker : ∀ {k w}, s.workers.get k = some w → w.executionID ≠ id :=
    fun hk hid => hattended (.inl ⟨_, _, hk, hid⟩)
  have hrequest : ∀ {request}, s.requests.get request ≠ some (.retrying id) :=
    fun hr => hattended (.inr ⟨_, hr⟩)
  have hrequest' : ¬∃ request, s'.requests.get request = some (.retrying id) := by
    rintro ⟨request, hr⟩
    rcases (effect_of_step h).retries request id hr with hold | ⟨e', he', hfailed⟩
    · exact hrequest hold
    · rw [hrow] at he'
      rw [← Option.some.inj he', hrunning] at hfailed
      cases hfailed
  -- what is left to show of a step that leaves the row running and its workers alone
  have hkeep : ∀ {e'}, s'.executions.get id = some e' → e'.status = .running →
      (∀ k w, s'.workers.get k = some w → w.executionID ≠ id) → Stuck id s' := by
    intro e' he' hrunning' hworkers
    refine ⟨⟨e', he', hrunning'⟩, ?_⟩
    rintro (⟨k, w, hk, hid⟩ | hr)
    · exact hworkers k w hk hid
    · exact hrequest' hr
  have hsame : SameWorkers id s s' → ∀ k w, s'.workers.get k = some w → w.executionID ≠ id :=
    fun hsame k w hk hid => hworker ((hsame k w hid).mp hk) hid
  cases (effect_of_step h).execution id with
  | same hrow' _ hworkers => exact hkeep (hrow'.trans hrow) hrunning (hsame hworkers)
  | fetch hrow' hpending =>
    rw [hrow] at hrow'
    rw [← Option.some.inj hrow', hrunning] at hpending
    cases hpending
  | start hw hid | returned hw hid | record hw hid => exact absurd hid (hworker hw)
  | stop _ hrow' _ hworkers =>
    refine hkeep (hrow'.trans hrow) hrunning ?_
    intro k w hk
    obtain ⟨-, ⟨⟩⟩ | ⟨-, hk⟩ := hworkers.cases hk
    exact hworker hk
  | insert hrow' =>
    rw [hrow] at hrow'
    cases hrow'
  | requeue _ hr => exact absurd hr hrequest
  | remove hrow' hidle =>
    rw [hrow] at hrow'
    rw [← Option.some.inj hrow'] at hidle
    exact absurd hrunning hidle
  | unlink hrow' hrow'' _ hworkers =>
    rw [hrow] at hrow'
    rw [← Option.some.inj hrow'] at hrow''
    exact hkeep hrow'' hrunning (hsame hworkers)

/-- It stays stuck, whatever happens. -/
theorem Stuck.run (hstuck : Stuck id s) (hrun : Runs.Run Tasks.step (fun _ _ => True) s s') :
    Stuck id s' :=
  Runs.Run.invariant hstuck (fun _ _ _ hs _ hstep => Stuck.step hs hstep) hrun

/-! ## Executions that somebody attends to -/

theorem recordOutcome_status (now delay : ℤ) (dequeued : Execution) (attempt : Attempt)
    (row : Execution) : (recordOutcome now delay dequeued attempt row).status ≠ .running := by
  unfold recordOutcome
  split
  · simp
  · dsimp only
    split <;> simp

/-- One step on the way to another status. -/
theorem Movable.of_step (hstep : step s label = some s') (h : Movable s' id) : Movable s id := by
  obtain ⟨last, hrun, hlast⟩ := h
  refine ⟨last, ?_, hlast⟩
  clear hlast
  induction hrun with
  | refl => exact .step .refl trivial hstep
  | step _ _ hnext ih => exact .step ih trivial hnext

/-- A step that gives the row another status. -/
theorem movable_of_update {f : Execution → Execution} (hf : ∀ e, (f e).status ≠ .running)
    (hstep : step s label = some s') (hrows : s'.executions = s.executions.update id f) :
    Movable s id := by
  refine Movable.of_step hstep ⟨s', .refl, ?_⟩
  rintro ⟨e, hrow, hrunning⟩
  rw [hrows, Table.get_update, if_pos rfl] at hrow
  obtain ⟨e', -, rfl⟩ := Option.map_eq_some_iff.mp hrow
  exact hf e' hrunning

variable {worker : ℕ} {w : Worker}

/-- A worker that has made its attempt records the outcome. -/
theorem movable_of_attempted {attempt : Attempt} (hworker : s.workers.get worker = some w)
    (hid : w.executionID = id) (hphase : w.phase = .attempted attempt) : Movable s id := by
  have hstep : step s (.record worker 0) = some { s with
      workers := s.workers.delete worker
      executions :=
        s.executions.update w.executionID (recordOutcome s.now 0 w.execution attempt) } := by
    simp only [step, hworker, Option.bind_some, hphase]
  rw [← hid]
  exact movable_of_update (recordOutcome_status _ _ _ _) hstep rfl

/-- A worker that is dispatching returns. -/
theorem movable_of_dispatching (hworker : s.workers.get worker = some w) (hid : w.executionID = id)
    (hphase : w.phase = .dispatching) : Movable s id := by
  have hstep : step s (.attempted worker (.sql none false)) = some { s with
      workers := s.workers.update worker fun w =>
        { w with phase := .attempted (.sql none false) } } := by
    simp only [step, hworker, Option.bind_some, hphase, if_true]
  exact Movable.of_step hstep (movable_of_attempted (Table.get_update_self hworker _) hid rfl)

theorem movable_of_held (hworker : s.workers.get worker = some w) (hid : w.executionID = id) :
    Movable s id := by
  cases hphase : w.phase with
  | fetched =>
    have hstep : step s (.dispatch worker) = some { s with
        workers := s.workers.update worker fun w => { w with phase := .dispatching }
        history := Function.update s.history w.executionID
          { s.history w.executionID with count := (s.history w.executionID).count + 1 } } := by
      simp only [step, hworker, Option.bind_some, hphase, if_true]
    exact Movable.of_step hstep (movable_of_dispatching (Table.get_update_self hworker _) hid rfl)
  | dispatching => exact movable_of_dispatching hworker hid hphase
  | attempted attempt => exact movable_of_attempted hworker hid hphase

theorem movable_of_retrying {request : ℕ}
    (hrequest : s.requests.get request = some (.retrying id)) (hrunning : Running s id) :
    Movable s id := by
  obtain ⟨e, hrow, -⟩ := hrunning
  have hstep : step s (.requeue request) = some { s with
      requests := s.requests.delete request
      executions := s.executions.update id (requeued s.now)
      history := Function.update s.history id ⟨0, e.maxAttempts⟩ } := by
    simp only [step, hrequest, hrow, Option.map_some]
  exact movable_of_update (fun _ => by simp [requeued]) hstep rfl

/-- A running execution can be moved on exactly when somebody attends to it. -/
theorem movable_iff_attended (hrunning : Running s id) : Movable s id ↔ Attended s id := by
  constructor
  · rintro ⟨s', hrun, hmoved⟩
    by_contra hattended
    exact hmoved (Stuck.run ⟨hrunning, hattended⟩ hrun).1
  · rintro (⟨worker, w, hworker, hid⟩ | ⟨request, hrequest⟩)
    · exact movable_of_held hworker hid
    · exact movable_of_retrying hrequest hrunning

/-! ## Runs -/

/-- The step stops no worker. -/
def Label.keepsWorkers : Label → Bool
  | .stop _ => false
  | _ => true

/-- Every running execution is held by a worker. -/
def Held (s : State) : Prop :=
  ∀ id, Running s id → ∃ worker w, s.workers.get worker = some w ∧ w.executionID = id

/-- A worker leaves only by recording an outcome, which ends the status. -/
theorem Held.step (hheld : Held s) (h : step s label = some s')
    (hallowed : label.keepsWorkers) : Held s' := by
  rintro id ⟨e', hrow', hrunning⟩
  -- steps that leave the row and its workers alone
  have hkeep : ∀ {e}, s.executions.get id = some e → e.status = .running →
      SameWorkers id s s' → ∃ worker w, s'.workers.get worker = some w ∧ w.executionID = id := by
    intro e hrow he hworkers
    obtain ⟨worker, w, hw, hid⟩ := hheld id ⟨e, hrow, he⟩
    exact ⟨worker, w, (hworkers worker w hid).mpr hw, hid⟩
  have hchanged : ∀ {worker w}, ChangedWorker worker (some w) s s' → w.executionID = id →
      ∃ worker w, s'.workers.get worker = some w ∧ w.executionID = id := by
    intro worker w hworkers hid
    exact ⟨worker, w, (hworkers worker).trans (if_pos rfl), hid⟩
  cases (effect_of_step h).execution id with
  | same hrow _ hworkers => exact hkeep (hrow.symm.trans hrow') hrunning hworkers
  | fetch _ _ _ _ hworkers => exact hchanged hworkers rfl
  | start _ hid _ _ _ hworkers | returned _ hid _ _ _ hworkers => exact hchanged hworkers hid
  | record _ _ _ hrow =>
    rw [hrow'] at hrow
    obtain ⟨e, -, rfl⟩ := Option.map_eq_some_iff.mp hrow.symm
    exact absurd hrunning (recordOutcome_status _ _ _ _ _)
  | stop hlabel =>
    rw [hlabel] at hallowed
    cases hallowed
  | insert _ hrow | requeue _ _ _ hrow =>
    rw [hrow'] at hrow
    rw [Option.some.inj hrow] at hrunning
    cases hrunning
  | remove _ _ hrow =>
    rw [hrow'] at hrow
    cases hrow
  | unlink hrow hrow'' _ hworkers =>
    rw [hrow'] at hrow''
    rw [Option.some.inj hrow''] at hrunning
    exact hkeep hrow hrunning hworkers

/-- In every run in which no worker stops between its dequeue and its update, every running
execution can be moved on. -/
theorem queue_recoverable {jobs : Table JobID Job}
    (hrun : Runs.Run step (fun _ label => label.keepsWorkers) (initial jobs) s) :
    Recoverable s := by
  have hheld : Held s := by
    refine Runs.Run.invariant ?_ (fun _ _ _ hs hallowed hstep => Held.step hs hstep hallowed) hrun
    rintro id ⟨e, hrow, -⟩
    cases hrow
  intro id hrunning
  exact (movable_iff_attended hrunning).mpr (.inl (hheld id hrunning))

/-- An execution that is being dispatched. -/
def dispatchedRun : List Label :=
  [.trigger 0 ⟨none, some "p"⟩, .enqueue 0 7 5, .dequeue 1 7 "a", .dispatch 1]

theorem dispatchedRun_recoverable : ∃ s,
    Runs.exec step (initial .empty) dispatchedRun = some s ∧
      (s.executions.get 7).map Execution.status = some .running ∧ Recoverable s :=
  Runs.exists_exec_run (fun s => (s.executions.get 7).map Execution.status) (by decide +kernel)
    (by decide +kernel) fun _ hrun hstatus => ⟨hstatus, queue_recoverable hrun⟩

/-- The worker stops while it dispatches. -/
def stoppedRun : List Label := dispatchedRun ++ [.stop 1]

/-- The execution is running then, and in every state that can follow. -/
theorem stoppedRun_not_recoverable : ∃ s,
    Runs.exec step (initial .empty) stoppedRun = some s ∧
      (∀ s', Runs.Run step (fun _ _ => True) s s' → Running s' 7) ∧ ¬Recoverable s := by
  refine Runs.exists_exec₂ (a := some .running) (b := ([], []))
    (fun s => (s.executions.get 7).map Execution.status)
    (fun s => (s.workers.rows, s.requests.rows)) (by decide +kernel) fun s hstatus hs => ?_
  obtain ⟨hworkers, hrequests⟩ := Prod.mk.inj hs
  obtain ⟨e, hrow, hrunning⟩ := Option.map_eq_some_iff.mp hstatus
  have hstuck : Stuck 7 s := by
    refine ⟨⟨e, hrow, hrunning⟩, ?_⟩
    rintro (⟨worker, w, hw, -⟩ | ⟨request, hr⟩)
    · rw [Table.get_eq_some_iff, hworkers] at hw
      cases hw
    · rw [Table.get_eq_some_iff, hrequests] at hr
      cases hr
  refine ⟨fun s' hrun => (hstuck.run hrun).1, ?_⟩
  intro hrecoverable
  exact hstuck.2 ((movable_iff_attended hstuck.1).mp (hrecoverable 7 hstuck.1))

end Layr.Tasks
