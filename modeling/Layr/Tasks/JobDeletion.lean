import Layr.Tasks.Queue

/-!
# Executions of deleted jobs

`DeleteJob` deletes the pending executions of a job and then the job, in two statements, and the
foreign key sets `job_id` to null in the executions that are left. Nothing tells these from
executions that never had a job: one that was enqueued between the two statements, one that a
worker fetched before and one whose retry is recorded afterwards are all dispatched later.

The history is the job that each execution was inserted for, the jobs whose deletion has returned,
and the executions dispatched behind that.
-/

namespace Layr.Tasks

variable {e' : Execution} {id : ExecutionID} {jobID : JobID}

/-! ## The history -/

/-- The execution that a step dispatches. -/
def State.dispatched (s : State) : Label → Option ExecutionID
  | .dispatch worker => (s.workers.get worker).map Worker.executionID
  | _ => none

/-- The execution that `RetryDLQExecution` puts back into the queue. -/
def State.requeues (s : State) : Label → Option ExecutionID
  | .requeue request =>
    match s.requests.get request with
    | some (.retrying id) => some id
    | _ => none
  | _ => none

/-- The execution that a worker puts back into the queue for a retry. -/
def State.retries (s : State) : Label → Option ExecutionID
  | .record worker delay =>
    (s.workers.get worker).bind fun w =>
      match w.phase with
      | .attempted attempt =>
        if (recordOutcome s.now delay w.execution attempt w.execution).status = .pending then
          some w.executionID
        else none
      | _ => none
  | _ => none

/-- The queue with its history. -/
structure Tracked where
  state : State
  origin : ExecutionID → Option (Option JobID)
  deleted : List JobID
  late : List ExecutionID

def Tracked.initial (jobs : Table JobID Job) : Tracked where
  state := Tasks.initial jobs
  origin := fun _ => none
  deleted := []
  late := []

/-- The execution was inserted for a job whose deletion has returned. -/
def Tracked.isOrphan (t : Tracked) (id : ExecutionID) : Bool :=
  match t.origin id with
  | some (some jobID) => t.deleted.contains jobID
  | _ => false

/-- One step. The identifier of a new execution is one that no execution has had. -/
def trackedStep (t : Tracked) (label : Label) : Option Tracked :=
  if (t.state.inserted label).any fun e => (t.origin e.1).isSome then none
  else
    (step t.state label).map fun s =>
      { state := s
        origin :=
          match t.state.inserted label with
          | some (id, jobID) => Function.update t.origin id (some jobID)
          | none => t.origin
        deleted := (t.state.removed label).toList ++ t.deleted
        late := (t.state.dispatched label).toList.filter t.isOrphan ++ t.late }

/-- A job is deleted when none of its executions is pending or waits in a worker for its dispatch,
and no execution of a deleted job is put back into the queue, neither for a retry nor by
`RetryDLQExecution`. -/
def leavesNone (t : Tracked) (label : Label) : Bool :=
  ((t.state.removed label).all fun jobID =>
    t.state.executions.rows.all (fun e => !isCancelled jobID e.1 e.2) &&
      t.state.workers.rows.all fun e =>
        !(e.2.execution.jobID = some jobID && e.2.phase = .fetched)) &&
    (t.state.retries label).all (fun id => !t.isOrphan id) &&
    (t.state.requeues label).all fun id => !t.isOrphan id

/-! ## What a step can do to rows, workers and jobs -/

section

variable {s s' : State} {label : Label}

/-- Where a row behind a step comes from. -/
inductive RowStep (s : State) (label : Label) (id : ExecutionID) (e' : Execution) : Prop
  | inserted (hlabel : s.inserted label = some (id, e'.jobID))
  | kept {e : Execution} (hrow : s.executions.get id = some e)
      (hjob : e'.jobID = e.jobID ∨
        e'.jobID = none ∧ ∃ jobID, e.jobID = some jobID ∧ s.removed label = some jobID)
      (hpending : e'.status = .pending →
        e.status = .pending ∨ s.retries label = some id ∨ s.requeues label = some id)

/-- The recorded status does not depend on the row. -/
theorem recordOutcome_row (now delay : ℤ) (dequeued : Execution) (attempt : Attempt)
    (row row' : Execution) :
    (recordOutcome now delay dequeued attempt row).jobID = row.jobID ∧
      (recordOutcome now delay dequeued attempt row).status =
        (recordOutcome now delay dequeued attempt row').status := by
  unfold recordOutcome
  split
  · exact ⟨rfl, rfl⟩
  · dsimp only
    split
    · exact ⟨rfl, rfl⟩
    · exact ⟨rfl, rfl⟩

theorem rowStep_of_step (h : step s label = some s') (hrow' : s'.executions.get id = some e') :
    RowStep s label id e' := by
  have hsame : s'.executions.get id = s.executions.get id → RowStep s label id e' := by
    intro hrow
    exact .kept (hrow.symm.trans hrow') (.inl rfl) .inl
  cases (effect_of_step h).execution id with
  | same hrow | start _ _ _ hrow | returned _ _ _ hrow | stop _ hrow => exact hsame hrow
  | fetch hrow _ hlocked =>
    obtain rfl := Option.some.inj (hrow'.symm.trans hlocked)
    exact .kept hrow (.inl rfl) fun hstatus => by cases hstatus
  | @record worker w attempt delay hworker hid hphase hrow _ _ hlabel =>
    obtain ⟨e, hrow, rfl⟩ := Option.map_eq_some_iff.mp (hrow.symm.trans hrow')
    obtain ⟨hjob, hrecorded⟩ := recordOutcome_row s.now delay w.execution attempt e w.execution
    refine .kept hrow (.inl hjob) fun hstatus => .inr (.inl ?_)
    rw [hrecorded] at hstatus
    simp only [State.retries, hlabel, hworker, Option.bind_some, hphase, hstatus, if_true, hid]
  | insert _ hnew _ _ hlabel =>
    obtain rfl := Option.some.inj (hrow'.symm.trans hnew)
    exact .inserted hlabel
  | requeue hlabel hrequest hrow hrequeued =>
    obtain rfl := Option.some.inj (hrow'.symm.trans hrequeued)
    refine .kept hrow (.inl rfl) fun _ => .inr (.inr ?_)
    simp only [State.requeues, hlabel, hrequest]
  | remove _ _ hnone =>
    rw [hrow'] at hnone
    cases hnone
  | unlink hrow hunlinked _ _ hjob hlabel =>
    obtain rfl := Option.some.inj (hrow'.symm.trans hunlinked)
    exact .kept hrow (.inr ⟨rfl, _, hjob, hlabel⟩) .inl

/-- A worker behind a step was there before, or has just fetched a pending execution. -/
theorem worker_of_step (h : step s label = some s') {k : ℕ} {w' : Worker}
    (hworker' : s'.workers.get k = some w') :
    (∃ w, s.workers.get k = some w ∧ w.executionID = w'.executionID ∧
      w.execution.jobID = w'.execution.jobID ∧ (w'.phase = .fetched → w.phase = .fetched)) ∨
    ∃ e, s.executions.get w'.executionID = some e ∧ e.status = .pending ∧
      w'.execution.jobID = e.jobID := by
  have hsame : SameWorkers w'.executionID s s' → s.workers.get k = some w' :=
    fun hworkers => (hworkers k w' rfl).mp hworker'
  suffices hcases : s.workers.get k = some w' ∨ (∃ w, s.workers.get k = some w ∧
      w.executionID = w'.executionID ∧ w.execution = w'.execution ∧ w'.phase ≠ .fetched) ∨
      ∃ e, s.executions.get w'.executionID = some e ∧ e.status = .pending ∧
        w'.execution.jobID = e.jobID by
    rcases hcases with hw | ⟨w, hw, hid, hexecution, hphase⟩ | hfetched
    · exact .inl ⟨w', hw, rfl, rfl, id⟩
    · exact .inl ⟨w, hw, hid, by rw [hexecution], fun hfetched => absurd hfetched hphase⟩
    · exact .inr hfetched
  cases (effect_of_step h).execution w'.executionID with
  | same _ _ hworkers | insert _ _ _ hworkers | requeue _ _ _ _ _ hworkers | remove _ _ _ _ hworkers
  | unlink _ _ _ hworkers => exact .inl (hsame hworkers)
  | fetch hrow hpending _ _ hworkers =>
    rcases hworkers.cases hworker' with ⟨-, hnew⟩ | ⟨-, hold⟩
    · rw [← Option.some.inj hnew]
      exact .inr (.inr ⟨_, hrow, hpending, rfl⟩)
    · exact .inl hold
  | start hworker _ _ _ _ hworkers | returned hworker _ _ _ _ hworkers =>
    rcases hworkers.cases hworker' with ⟨rfl, hnew⟩ | ⟨-, hold⟩
    · cases hnew
      exact .inr (.inl ⟨_, hworker, rfl, rfl, by simp⟩)
    · exact .inl hold
  | record _ _ _ _ _ hworkers | stop _ _ _ hworkers =>
    obtain ⟨-, ⟨⟩⟩ | ⟨-, hold⟩ := hworkers.cases hworker'
    exact .inl hold

/-- A removed job is gone. -/
theorem jobs_of_removed (h : step s label = some s') (hremoved : s.removed label = some jobID) :
    s'.jobs.get jobID = none := by
  cases label with
  | removeJob request =>
    simp only [step] at h
    simp only [State.removed] at hremoved
    split at h
    next jobID' hrequest =>
      rw [hrequest] at hremoved
      cases hremoved
      cases h
      show (s.jobs.delete _).get _ = none
      rw [Table.get_delete, if_pos rfl]
    · cases h
  | _ => cases hremoved

/-- An execution is inserted for a job that there is. -/
theorem job_of_inserted (h : step s label = some s')
    (hinserted : s.inserted label = some (id, some jobID)) : s.jobs.get jobID ≠ none := by
  cases label with
  | poll =>
    obtain ⟨job, hjob, -⟩ := Option.bind_eq_some_iff.mp h
    obtain ⟨-, heq⟩ := Prod.mk.inj (Option.some.inj hinserted)
    rw [← Option.some.inj heq, hjob]
    exact Option.some_ne_none job
  | enqueue =>
    simp only [step] at h
    simp only [State.inserted] at hinserted
    split at h
    next jobID' payload hrequest =>
      rw [hrequest] at hinserted
      obtain ⟨-, rfl⟩ := Prod.mk.inj (Option.some.inj hinserted)
      obtain ⟨hjob, -⟩ := Option.ite_none_right_eq_some.mp h
      exact Option.isSome_iff_ne_none.mp hjob
    · cases h
  | _ => cases hinserted

/-- A step inserts an execution or deletes a job, not both. -/
theorem removed_of_inserted {e : ExecutionID × Option JobID}
    (hinserted : s.inserted label = some e) : s.removed label = none := by
  cases label <;> first | rfl | cases hinserted

/-- The step that deletes a job puts no execution back into the queue. -/
theorem requeues_of_removed (hremoved : s.removed label = some jobID) :
    s.retries label = none ∧ s.requeues label = none := by
  cases label <;> first | exact ⟨rfl, rfl⟩ | cases hremoved

/-- An execution is dispatched by a worker that has fetched it. -/
theorem worker_of_dispatched (h : step s label = some s')
    (hdispatched : s.dispatched label = some id) :
    ∃ k w, s.workers.get k = some w ∧ w.executionID = id ∧ w.phase = .fetched := by
  cases label with
  | dispatch worker =>
    obtain ⟨w, hworker, h⟩ := Option.bind_eq_some_iff.mp h
    obtain ⟨hphase, -⟩ := Option.ite_none_right_eq_some.mp h
    simp only [State.dispatched, hworker, Option.map_some, Option.some.injEq] at hdispatched
    exact ⟨worker, w, hworker, hdispatched, hphase⟩
  | _ => cases hdispatched

end

/-! ## The invariant -/

/-- An execution that no step will dispatch unless it is put back into the queue. -/
structure Still (s : State) (id : ExecutionID) : Prop where
  row : ∀ e, s.executions.get id = some e → e.status ≠ .pending
  workers : ∀ k w, s.workers.get k = some w → w.executionID = id → w.phase ≠ .fetched

/-- An execution refers to the job that it was inserted for, or to none if that is deleted. -/
def Tracked.Owned (t : Tracked) (id : ExecutionID) (jobID : Option JobID) : Prop :=
  ∃ origin, t.origin id = some origin ∧
    (jobID = origin ∨ jobID = none ∧ t.isOrphan id)

structure Tracked.Inv (t : Tracked) : Prop where
  rows : ∀ id e, t.state.executions.get id = some e → t.Owned id e.jobID
  workers : ∀ k w, t.state.workers.get k = some w → t.Owned w.executionID w.execution.jobID
  jobs : ∀ jobID ∈ t.deleted, t.state.jobs.get jobID = none
  still : ∀ id, t.isOrphan id → Still t.state id
  late : t.late = []

theorem isOrphan_iff {t : Tracked} :
    t.isOrphan id ↔ ∃ jobID ∈ t.deleted, t.origin id = some (some jobID) := by
  unfold Tracked.isOrphan
  split
  next jobID horigin => simp [horigin]
  next hother =>
    constructor
    · intro h
      cases h
    · rintro ⟨jobID, -, horigin⟩
      exact absurd horigin (hother jobID)

theorem inv_initial (jobs : Table JobID Job) : (Tracked.initial jobs).Inv where
  rows _ _ h := by cases h
  workers _ _ h := by cases h
  jobs _ h := by cases h
  still _ h := by cases h
  late := rfl

section

variable {t t' : Tracked} {label : Label}

/-- What a step adds to the history. -/
structure History (t : Tracked) (label : Label) (t' : Tracked) : Prop where
  step : step t.state label = some t'.state
  fresh : ∀ id jobID, t.state.inserted label = some (id, jobID) → t.origin id = none
  inserted : ∀ id jobID, t.state.inserted label = some (id, jobID) →
    t'.origin = Function.update t.origin id (some jobID)
  kept : t.state.inserted label = none → t'.origin = t.origin
  deleted : t'.deleted = (t.state.removed label).toList ++ t.deleted
  late : t'.late = (t.state.dispatched label).toList.filter t.isOrphan ++ t.late

theorem history_of_step (h : trackedStep t label = some t') : History t label t' := by
  unfold trackedStep at h
  split at h
  · cases h
  next hfresh =>
    obtain ⟨s, hstep, rfl⟩ := Option.map_eq_some_iff.mp h
    refine ⟨hstep, ?_, ?_, ?_, rfl, rfl⟩
    · intro id jobID hinserted
      rw [hinserted] at hfresh
      simpa using hfresh
    · intro id jobID hinserted
      simp only [hinserted]
    · intro hinserted
      simp only [hinserted]

/-- What is known of the origin of an execution stays. -/
theorem History.origin (h : History t label t') {origin : Option JobID}
    (horigin : t.origin id = some origin) : t'.origin id = some origin := by
  cases hinserted : t.state.inserted label with
  | none => rw [h.kept hinserted, horigin]
  | some e =>
    have hne : id ≠ e.1 := by
      rintro rfl
      rw [h.fresh e.1 e.2 hinserted] at horigin
      cases horigin
    rw [h.inserted e.1 e.2 hinserted, Function.update_of_ne hne, horigin]

theorem History.orphan (h : History t label t') (horphan : t.isOrphan id) :
    t'.isOrphan id := by
  obtain ⟨jobID, hmem, horigin⟩ := isOrphan_iff.mp horphan
  refine isOrphan_iff.mpr ⟨jobID, ?_, h.origin horigin⟩
  rw [h.deleted]
  exact List.mem_append_right _ hmem

theorem Tracked.Owned.kept (h : History t label t') {jobID : Option JobID}
    (howned : t.Owned id jobID) : t'.Owned id jobID := by
  obtain ⟨origin, horigin, hjob⟩ := howned
  refine ⟨origin, h.origin horigin, ?_⟩
  rcases hjob with hjob | ⟨hnone, horphan⟩
  · exact .inl hjob
  · exact .inr ⟨hnone, h.orphan horphan⟩

/-- An orphan was one before, or its job has just been deleted. -/
theorem Tracked.Inv.orphan_cases (hinv : t.Inv) (h : History t label t')
    (horphan : t'.isOrphan id) :
    t.isOrphan id ∨
      ∃ jobID, t.origin id = some (some jobID) ∧ t.state.removed label = some jobID := by
  obtain ⟨jobID, hmem, horigin⟩ := isOrphan_iff.mp horphan
  rw [h.deleted] at hmem
  cases hinserted : t.state.inserted label with
  | none =>
    rw [h.kept hinserted] at horigin
    rcases List.mem_append.mp hmem with hremoved | hmem
    · exact .inr ⟨jobID, horigin, Option.mem_toList.mp hremoved⟩
    · exact .inl (isOrphan_iff.mpr ⟨jobID, hmem, horigin⟩)
  | some e =>
    rw [removed_of_inserted hinserted, Option.toList_none, List.nil_append] at hmem
    rw [h.inserted e.1 e.2 hinserted] at horigin
    by_cases hid : id = e.1
    · -- a new execution belongs to a job that there is
      rw [hid, Function.update_self] at horigin
      have hnew : t.state.inserted label = some (e.1, some jobID) := by
        rw [← Option.some.inj horigin]
        exact hinserted
      exact absurd (hinv.jobs jobID hmem) (job_of_inserted h.step hnew)
    · rw [Function.update_of_ne hid] at horigin
      exact .inl (isOrphan_iff.mpr ⟨jobID, hmem, horigin⟩)

/-- A pending execution or a fetching worker of a job that is not deleted refers to it. -/
theorem Tracked.Inv.job_of_owned {origin jobID : Option JobID} (howned : t.Owned id jobID)
    (horigin : t.origin id = some origin) (halive : t.isOrphan id ≠ true) : jobID = origin := by
  obtain ⟨origin', horigin', hjob | ⟨-, horphan⟩⟩ := howned
  · rw [hjob]
    exact Option.some.inj (horigin'.symm.trans horigin)
  · exact absurd horphan halive

theorem Tracked.Inv.rows_step (hinv : t.Inv) (h : History t label t') :
    ∀ id e, t'.state.executions.get id = some e → t'.Owned id e.jobID := by
  intro id e' hrow'
  cases rowStep_of_step h.step hrow' with
  | inserted hlabel =>
    refine ⟨e'.jobID, ?_, .inl rfl⟩
    rw [h.inserted id e'.jobID hlabel, Function.update_self]
  | @kept e hrow hjob hpending =>
    have howned := hinv.rows id e hrow
    rcases hjob with hsame | ⟨hnone, jobID, hjob, hremoved⟩
    · rw [hsame]
      exact howned.kept h
    · -- the job of the row has just been deleted
      obtain ⟨origin, horigin, hcases⟩ := howned
      refine ⟨origin, h.origin horigin, .inr ⟨hnone, ?_⟩⟩
      rcases hcases with hsame | ⟨hempty, horphan⟩
      · refine isOrphan_iff.mpr ⟨jobID, ?_, ?_⟩
        · rw [h.deleted, hremoved]
          exact List.mem_cons_self
        · rw [h.origin horigin, ← hsame, hjob]
      · exact h.orphan horphan

theorem Tracked.Inv.workers_step (hinv : t.Inv) (h : History t label t') :
    ∀ k w, t'.state.workers.get k = some w → t'.Owned w.executionID w.execution.jobID := by
  intro k w' hworker'
  rcases worker_of_step h.step hworker' with ⟨w, hworker, hid, hjob, -⟩ | ⟨e, hrow, -, hjob⟩
  · rw [← hid, ← hjob]
    exact (hinv.workers k w hworker).kept h
  · rw [hjob]
    exact (hinv.rows _ e hrow).kept h

/-- The condition leaves no execution of a deleted job to be dispatched. -/
theorem Tracked.Inv.still_step (hinv : t.Inv) (h : History t label t')
    (hallowed : leavesNone t label) (horphan : t'.isOrphan id) :
    Still t'.state id := by
  simp only [leavesNone, Bool.and_eq_true, Option.all_eq_true, Bool.not_eq_true'] at hallowed
  obtain ⟨⟨hremoves, hretries⟩, hrequeues⟩ := hallowed
  -- before the step, nothing of it was pending or fetched
  obtain ⟨hbefore, hknown, hback⟩ : Still t.state id ∧ t.origin id ≠ none ∧
      ¬(t.state.retries label = some id ∨ t.state.requeues label = some id) := by
    rcases hinv.orphan_cases h horphan with horphan | ⟨jobID, horigin, hremoved⟩
    · obtain ⟨jobID, -, horigin⟩ := isOrphan_iff.mp horphan
      refine ⟨hinv.still id horphan, by simp [horigin], fun hback => ?_⟩
      rw [hback.elim (hretries id) (hrequeues id)] at horphan
      cases horphan
    · obtain ⟨hretried, hrequeued⟩ := requeues_of_removed hremoved
      refine ⟨?_, by simp [horigin], by simp [hretried, hrequeued]⟩
      by_cases halive : t.isOrphan id
      · exact hinv.still id halive
      obtain ⟨hrows, hworkers⟩ := hremoves jobID hremoved
      constructor
      · intro e hrow hpending
        have hjob := Inv.job_of_owned (hinv.rows id e hrow) horigin halive
        have hcancelled := List.all_eq_true.mp hrows _ (Table.get_eq_some_iff.mp hrow)
        simp [isCancelled, hjob, hpending] at hcancelled
      · intro k w hworker hid hphase
        have hjob := Inv.job_of_owned (hinv.workers k w hworker) (hid ▸ horigin) (hid ▸ halive)
        have hfetched := List.all_eq_true.mp hworkers _ (Table.get_eq_some_iff.mp hworker)
        simp [hjob, hphase] at hfetched
  constructor
  · intro e' hrow' hpending
    cases rowStep_of_step h.step hrow' with
    | inserted hlabel => exact hknown (h.fresh id _ hlabel)
    | @kept e hrow _ hcases =>
      rcases hcases hpending with hpending | hqueued
      · exact hbefore.row e hrow hpending
      · exact hback hqueued
  · intro k w' hworker' hid hphase
    rcases worker_of_step h.step hworker' with
      ⟨w, hworker, hsame, -, hfetched⟩ | ⟨e, hrow, hpending, -⟩
    · exact hbefore.workers k w hworker (hsame.trans hid) (hfetched hphase)
    · rw [hid] at hrow
      exact hbefore.row e hrow hpending

theorem Tracked.Inv.step (hinv : t.Inv) (hallowed : leavesNone t label)
    (hstep : trackedStep t label = some t') : t'.Inv := by
  have h := history_of_step hstep
  refine ⟨hinv.rows_step h, hinv.workers_step h, ?_, fun id => hinv.still_step h hallowed, ?_⟩
  · intro jobID hmem
    rw [h.deleted] at hmem
    rcases List.mem_append.mp hmem with hremoved | hmem
    · exact jobs_of_removed h.step (Option.mem_toList.mp hremoved)
    · exact (effect_of_step h.step).jobs jobID (hinv.jobs jobID hmem)
  · rw [h.late, hinv.late, List.append_nil, List.filter_eq_nil_iff]
    intro id hdispatched horphan
    obtain ⟨k, w, hworker, hid, hphase⟩ :=
      worker_of_dispatched h.step (Option.mem_toList.mp hdispatched)
    exact (hinv.still id horphan).workers k w hworker hid hphase

end

/-! ## Runs -/

/-- In every run in which jobs are deleted only when none of their executions is pending or
fetched, and executions of deleted jobs are not put back into the queue, no execution is
dispatched once the deletion of its job has returned. -/
theorem no_dispatch_after_deletion {jobs : Table JobID Job} {t : Tracked}
    (hrun : Runs.Run trackedStep (fun t label => leavesNone t label) (.initial jobs) t) :
    t.late = [] := by
  have hinv : t.Inv := by
    refine Runs.Run.invariant (inv_initial jobs) ?_ hrun
    intro t label t' hinv hallowed hstep
    exact hinv.step hallowed hstep
  exact hinv.late

/-- One job that is due. -/
def dueJobs : Table JobID Job :=
  ⟨[(3, ⟨"j", "* * * * *", "UTC", "http", "p", true, none, 0⟩)], by simp⟩

/-- An execution of the job completes, another one is cancelled, and the job is deleted. -/
def cleanRun : List Label :=
  [.poll 3 7 60 2, .dequeue 1 7 "a", .dispatch 1, .attempted 1 (.http (some 200) false none),
   .record 1 0, .trigger 0 ⟨some 3, none⟩, .enqueue 0 8 2, .deleteJob 2 3, .cancelPending 2,
   .removeJob 2]

theorem cleanRun_not_late : ∃ t,
    Runs.exec trackedStep (.initial dueJobs) cleanRun = some t ∧ t.deleted = [3] ∧
      t.late = [] :=
  Runs.exists_exec_run Tracked.deleted (by decide +kernel) (by decide +kernel)
    fun _ hrun hdeleted => ⟨hdeleted, no_dispatch_after_deletion hrun⟩

/-- A worker is dispatching an execution of the job while the job is deleted. The attempt fails,
the retry makes it pending, and it is dispatched again. -/
def retriedOrphanRun : List Label :=
  [.poll 3 7 60 2, .dequeue 1 7 "a", .dispatch 1, .deleteJob 2 3, .cancelPending 2, .removeJob 2,
   .attempted 1 (.http (some 500) false none), .record 1 0, .dequeue 1 7 "a", .dispatch 1]

/-- An execution is triggered between the two statements of the deletion. -/
def triggeredOrphanRun : List Label :=
  [.trigger 0 ⟨some 3, none⟩, .deleteJob 2 3, .cancelPending 2, .enqueue 0 8 2, .removeJob 2,
   .dequeue 1 8 "a", .dispatch 1]

theorem orphans_dispatched :
    (Runs.exec trackedStep (.initial dueJobs) retriedOrphanRun).map
        (fun t => (t.deleted, t.late)) = some ([3], [7]) ∧
      (Runs.exec trackedStep (.initial dueJobs) triggeredOrphanRun).map
        (fun t => (t.deleted, t.late)) = some ([3], [8]) := by
  decide +kernel

end Layr.Tasks
