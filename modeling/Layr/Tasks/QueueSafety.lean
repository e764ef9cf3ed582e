import Layr.Tasks.Queue

/-!
# Exclusive dispatch and the bound on attempts

An execution that a worker has dequeued stays `running`, with the attempts the worker knows of,
until that worker records its outcome: dequeues take pending executions only, and cancelling and
purging leave running ones alone. The update of `RetryDLQExecution` names no status, so it can put
an execution back into the queue that a worker is processing.
-/

namespace Layr.Tasks

/-! ## The properties -/

/-- No execution is being dispatched by two workers. -/
def DispatchedOnce (s : State) : Prop :=
  ∀ worker worker' w w', s.workers.get worker = some w → s.workers.get worker' = some w' →
    w.phase = .dispatching → w'.phase = .dispatching → w.executionID = w'.executionID →
    worker = worker'

/-- Since it was last enqueued, no execution was dispatched more often than its attempts allow. -/
def WithinAttempts (s : State) : Prop :=
  ∀ id, ((s.history id).count : ℤ) ≤ max 1 (s.history id).maxAttempts

/-- A worker holds the execution. -/
def State.isHeld (s : State) (id : ExecutionID) : Bool :=
  s.workers.rows.any fun e => e.2.executionID = id

/-- The update of `RetryDLQExecution` meets an execution that no worker is processing. -/
def requeuesIdle (s : State) : Label → Bool
  | .requeue request =>
    match s.requests.get request with
    | some (.retrying id) => !s.isHeld id
    | _ => true
  | _ => true

variable {worker : ℕ} {w : Worker}

theorem isHeld_eq_false {s : State} {id : ExecutionID} (h : s.isHeld id = false)
    (hworker : s.workers.get worker = some w) : w.executionID ≠ id := by
  intro heq
  have hmem : (worker, w) ∈ s.workers.rows := Table.get_eq_some_iff.mp hworker
  have hany := List.any_eq_false.mp h _ hmem
  exact hany (decide_eq_true heq)

/-! ## The invariant of an execution -/

/-- The attempts of a row and the dispatches they stand for. -/
def RowOK (e : Execution) (history : Dispatches) : Prop :=
  history.maxAttempts = e.maxAttempts ∧
    match e.status with
    | .pending => (history.count : ℤ) = e.attempts ∧ (e.attempts = 0 ∨ e.attempts < e.maxAttempts)
    | .running => e.attempts = 0 ∨ e.attempts < e.maxAttempts
    | _ => True

/-- A worker holds a running execution, with the attempts it read. -/
def WorkerOK (w : Worker) (e : Execution) (history : Dispatches) : Prop :=
  e.status = .running ∧ e.attempts = w.execution.attempts ∧
    e.maxAttempts = w.execution.maxAttempts ∧
    match w.phase with
    | .fetched => (history.count : ℤ) = w.execution.attempts
    | _ => (history.count : ℤ) = w.execution.attempts + 1

structure InvAt (s : State) (id : ExecutionID) : Prop where
  held : ∀ worker w, s.workers.get worker = some w → w.executionID = id →
    ∃ e, s.executions.get id = some e ∧ WorkerOK w e (s.history id)
  exclusive : ∀ worker worker' w w', s.workers.get worker = some w →
    s.workers.get worker' = some w' → w.executionID = id → w'.executionID = id → worker = worker'
  row : ∀ e, s.executions.get id = some e → RowOK e (s.history id)
  bounded : ((s.history id).count : ℤ) ≤ max 1 (s.history id).maxAttempts

def Inv (s : State) : Prop := ∀ id, InvAt s id

theorem invAt_initial (jobs : Table JobID Job) (id : ExecutionID) : InvAt (initial jobs) id where
  held _ _ h := by cases h
  exclusive _ _ _ _ h := by cases h
  row _ h := by cases h
  bounded := by simp [initial]

/-! ## Steps -/

section

variable {s s' : State} {id : ExecutionID} {label : Label}

/-- The execution when nothing that counts changes in its row, and its workers were there before. -/
theorem InvAt.of_kept (hinv : InvAt s id) {f : Execution → Execution}
    (hold : ∀ k w, s'.workers.get k = some w → w.executionID = id → s.workers.get k = some w)
    (hrow : s'.executions.get id = (s.executions.get id).map f)
    (hhistory : s'.history id = s.history id)
    (hf : ∀ e, (f e).status = e.status ∧ (f e).attempts = e.attempts ∧
      (f e).maxAttempts = e.maxAttempts) : InvAt s' id := by
  refine ⟨?_, fun k k' w w' hk hk' hid hid' => ?_, ?_, ?_⟩
  · intro k w hk hid
    obtain ⟨e, he, hok⟩ := hinv.held k w (hold k w hk hid) hid
    refine ⟨f e, by rw [hrow, he, Option.map_some], ?_⟩
    simpa only [WorkerOK, hf, hhistory] using hok
  · exact hinv.exclusive k k' w w' (hold k w hk hid) (hold k' w' hk' hid') hid hid'
  · intro e' he'
    rw [hrow] at he'
    obtain ⟨e, he, rfl⟩ := Option.map_eq_some_iff.mp he'
    simpa only [RowOK, hf, hhistory] using hinv.row e he
  · rw [hhistory]
    exact hinv.bounded

/-- No worker holds an execution that is not running. -/
theorem InvAt.unheld (hinv : InvAt s id) {e : Execution} (hrow : s.executions.get id = some e)
    (hidle : e.status ≠ .running) (hworker : s.workers.get worker = some w) :
    w.executionID ≠ id := by
  intro hid
  obtain ⟨e', he', hok⟩ := hinv.held worker w hworker hid
  rw [hrow] at he'
  rw [Option.some.inj he'] at hidle
  exact hidle hok.1

/-- A worker that moves on stays the only one. -/
theorem changedWorker_exclusive (hinv : InvAt s id) {w₁ : Worker}
    (hworker : s.workers.get worker = some w) (hid : w.executionID = id)
    (hworkers : ChangedWorker worker (some w₁) s s') :
    ∀ k w', s'.workers.get k = some w' → w'.executionID = id → k = worker ∧ w' = w₁ := by
  intro k w' hk hid'
  rcases hworkers.cases hk with ⟨heq, hnew⟩ | ⟨hne, hk⟩
  · exact ⟨heq, (Option.some.inj hnew).symm⟩
  · exact absurd (hinv.exclusive k worker w' w hk hworker hid' hid) hne

/-- The execution when one worker holds it after a step. -/
theorem InvAt.of_single {w₁ : Worker} {e : Execution} {history : Dispatches}
    (hhistory : s'.history id = history) (hrow : s'.executions.get id = some e)
    (hsingle : ∀ k w', s'.workers.get k = some w' → w'.executionID = id → k = worker ∧ w' = w₁)
    (hok : WorkerOK w₁ e history) (hrowOK : RowOK e history)
    (hbounded : (history.count : ℤ) ≤ max 1 history.maxAttempts) : InvAt s' id := by
  subst hhistory
  refine ⟨fun k w' hk hid => ?_, fun k k' w' w'' hk hk' hid hid' => ?_, fun e' he' => ?_, hbounded⟩
  · obtain ⟨-, rfl⟩ := hsingle k w' hk hid
    exact ⟨e, hrow, hok⟩
  · exact (hsingle k w' hk hid).1.trans (hsingle k' w'' hk' hid').1.symm
  · cases hrow.symm.trans he'
    exact hrowOK

/-- The execution when no worker holds it after a step. -/
theorem InvAt.of_none {row : Option Execution} {history : Dispatches}
    (hhistory : s'.history id = history) (hrow : s'.executions.get id = row)
    (hnone : ∀ k w', s'.workers.get k = some w' → w'.executionID ≠ id)
    (hrowOK : ∀ e ∈ row, RowOK e history)
    (hbounded : (history.count : ℤ) ≤ max 1 history.maxAttempts) : InvAt s' id := by
  subst hhistory hrow
  exact ⟨fun k w' hk hid => absurd hid (hnone k w' hk),
    fun k _ w' _ hk _ hid _ => absurd hid (hnone k w' hk), hrowOK, hbounded⟩

theorem unheld_of_same (hworkers : SameWorkers id s s')
    (hnone : ∀ {k w}, s.workers.get k = some w → w.executionID ≠ id) :
    ∀ k w', s'.workers.get k = some w' → w'.executionID ≠ id := by
  intro k w' hk hid
  exact hnone ((hworkers k w' hid).mp hk) hid

/-- What is recorded counts the dispatch: a retry is pending with one attempt more, and below the
maximum. -/
theorem rowOK_recordOutcome {now delay : ℤ} {attempt : Attempt} {e : Execution}
    {history : Dispatches} (hmax : history.maxAttempts = e.maxAttempts)
    (hcount : (history.count : ℤ) = w.execution.attempts + 1)
    (hsame : e.maxAttempts = w.execution.maxAttempts) :
    RowOK (recordOutcome now delay w.execution attempt e) history := by
  unfold recordOutcome
  split
  · exact ⟨hmax, trivial⟩
  · dsimp only
    split
    next hretry =>
      refine ⟨hmax, hcount, .inr ?_⟩
      show w.execution.attempts + 1 < e.maxAttempts
      rw [hsame]
      exact hretry.2
    · exact ⟨hmax, trivial⟩

theorem InvAt.step (hinv : InvAt s id) (heffect : EffectAt id s label s')
    (hallowed : requeuesIdle s label) : InvAt s' id := by
  cases heffect with
  | same hrow hhistory hworkers =>
    exact hinv.of_kept (f := fun e => e) (fun k w hk hid => (hworkers k w hid).mp hk)
      (by simp [hrow]) hhistory fun _ => ⟨rfl, rfl, rfl⟩
  | @fetch worker nodeID e hrow hpending hrow' hhistory hworkers =>
    obtain ⟨hmax, hcount⟩ := hinv.row e hrow
    rw [hpending] at hcount
    refine .of_single hhistory hrow' (fun k w' hk hid => (?_ : k = worker ∧
      w' = ⟨id, e.locked s.now nodeID, .fetched⟩)) ⟨rfl, rfl, rfl, hcount.1⟩ ⟨hmax, hcount.2⟩
      hinv.bounded
    rcases hworkers.cases hk with ⟨heq, hnew⟩ | ⟨-, hk⟩
    · exact ⟨heq, (Option.some.inj hnew).symm⟩
    · exact absurd hid (hinv.unheld hrow (by rw [hpending]; decide) hk)
  | @start worker w hworker hid hphase hrow hhistory hworkers =>
    -- the one step that counts a dispatch
    obtain ⟨e, he, hrunning, hattempts, hmax, hcount⟩ := hinv.held worker w hworker hid
    obtain ⟨hmax', hlimit⟩ := hinv.row e he
    rw [hphase] at hcount
    rw [hrunning] at hlimit
    have hcount' : (((s.history id).count + 1 : ℕ) : ℤ) = w.execution.attempts + 1 := by
      push_cast
      rw [hcount]
    refine .of_single hhistory (hrow.trans he)
      (changedWorker_exclusive hinv hworker hid hworkers) ⟨hrunning, hattempts, hmax, hcount'⟩
      ⟨hmax', by rwa [hrunning]⟩ ?_
    rw [hcount', hmax']
    omega
  | @returned worker w attempt hworker hid hphase hrow hhistory hworkers =>
    obtain ⟨e, he, hrunning, hattempts, hmax, hcount⟩ := hinv.held worker w hworker hid
    rw [hphase] at hcount
    exact .of_single hhistory (hrow.trans he) (changedWorker_exclusive hinv hworker hid hworkers)
      ⟨hrunning, hattempts, hmax, hcount⟩ (hinv.row e he) hinv.bounded
  | @record worker w attempt delay hworker hid hphase hrow hhistory hworkers =>
    obtain ⟨e, he, hrunning, hattempts, hmax, hcount⟩ := hinv.held worker w hworker hid
    rw [hphase] at hcount
    rw [he, Option.map_some] at hrow
    refine .of_none hhistory hrow (fun k w' hk hid' => ?_) ?_ hinv.bounded
    · obtain ⟨-, ⟨⟩⟩ | ⟨hne, hk⟩ := hworkers.cases hk
      exact hne (hinv.exclusive k worker w' w hk hworker hid' hid)
    · rintro _ ⟨⟩
      exact rowOK_recordOutcome (hinv.row e he).1 hcount hmax
  | @stop worker hlabel hrow hhistory hworkers =>
    refine hinv.of_kept (f := fun e => e) (fun k w hk _ => ?_) (by simp [hrow]) hhistory
      fun _ => ⟨rfl, rfl, rfl⟩
    obtain ⟨-, ⟨⟩⟩ | ⟨-, hk⟩ := hworkers.cases hk
    exact hk
  | @insert jobID payload maxAttempts hrow hrow' hhistory hworkers =>
    refine .of_none hhistory hrow' (unheld_of_same hworkers fun {k w} hk hid => ?_) ?_ (by simp)
    · obtain ⟨e, he, -⟩ := hinv.held k w hk hid
      rw [hrow] at he
      cases he
    · rintro _ ⟨⟩
      exact ⟨rfl, rfl, .inl rfl⟩
  | @requeue request e hlabel hrequest hrow hrow' hhistory hworkers =>
    -- here the condition is needed: the row may be held by a worker
    have hfree : s.isHeld id = false := by
      rw [hlabel] at hallowed
      simpa [requeuesIdle, hrequest] using hallowed
    refine .of_none hhistory hrow' (unheld_of_same hworkers (isHeld_eq_false hfree)) ?_ (by simp)
    rintro _ ⟨⟩
    exact ⟨rfl, rfl, .inl rfl⟩
  | @remove e hrow hidle hrow' hhistory hworkers =>
    exact .of_none hhistory hrow' (unheld_of_same hworkers (hinv.unheld hrow hidle)) (by simp)
      hinv.bounded
  | @unlink e _ hrow hrow' hhistory hworkers =>
    exact hinv.of_kept (f := Execution.unlink) (fun k w hk hid => (hworkers k w hid).mp hk)
      (by rw [hrow', hrow]; rfl) hhistory fun _ => ⟨rfl, rfl, rfl⟩

end

/-! ## Runs -/

/-- In every run in which `RetryDLQExecution` puts only executions back into the queue that no
worker is processing, no execution is dispatched by two workers at once, or more often than its
attempts allow since it was enqueued. -/
theorem queue_exclusive {jobs : Table JobID Job} {s : State}
    (hrun : Runs.Run step (fun s label => requeuesIdle s label) (initial jobs) s) :
    DispatchedOnce s ∧ WithinAttempts s := by
  have hinv : Inv s := by
    refine Runs.Run.invariant (invAt_initial jobs) ?_ hrun
    intro s label s' hinv hallowed hstep id
    exact (hinv id).step ((effect_of_step hstep).execution id) hallowed
  refine ⟨?_, fun id => (hinv id).bounded⟩
  intro worker worker' w w' hw hw' _ _ hid
  exact (hinv w.executionID).exclusive worker worker' w w' hw hw' rfl hid.symm

/-- An execution is triggered, fails at its only attempt, and is put back into the queue once. Two
workers then process it and another one. -/
def retriedRun : List Label :=
  [.trigger 0 ⟨none, some "p"⟩, .enqueue 0 7 1, .dequeue 1 7 "a", .dispatch 1,
   .attempted 1 (.http (some 500) false none), .record 1 0,
   .retry 2 7, .requeue 2, .trigger 3 ⟨none, some "q"⟩, .enqueue 3 8 1, .dequeue 1 7 "a",
   .dequeue 4 8 "b", .dispatch 4, .dispatch 1]

theorem retriedRun_exclusive : ∃ s,
    Runs.exec step (initial .empty) retriedRun = some s ∧
      (s.workers.get 1).map Worker.executionID = some 7 ∧
      (s.workers.get 4).map Worker.executionID = some 8 ∧ (s.history 7).count = 1 ∧
      DispatchedOnce s ∧ WithinAttempts s := by
  refine Runs.exists_exec_run (a := (some 7, some 8, 1))
    (fun s => ((s.workers.get 1).map Worker.executionID, (s.workers.get 4).map Worker.executionID,
      (s.history 7).count)) (by decide +kernel) (by decide +kernel) fun s hrun hs =>
    ⟨(Prod.mk.inj hs).1, (Prod.mk.inj (Prod.mk.inj hs).2).1, (Prod.mk.inj (Prod.mk.inj hs).2).2,
      queue_exclusive hrun⟩

/-- Two calls of `RetryDLQExecution` read that the execution has failed. The first one's update
makes it pending, and a worker takes it; the second one's makes it pending again, and another
worker takes it too. -/
def retriedTwiceRun : List Label :=
  [.trigger 0 ⟨none, some "p"⟩, .enqueue 0 7 1, .dequeue 1 7 "a", .dispatch 1,
   .attempted 1 (.http (some 500) false none), .record 1 0,
   .retry 2 7, .retry 3 7, .requeue 2, .dequeue 1 7 "a", .dispatch 1,
   .requeue 3, .dequeue 4 7 "b", .dispatch 4]

theorem retriedTwiceRun_not_exclusive : ∃ s,
    Runs.exec step (initial .empty) retriedTwiceRun = some s ∧ ¬DispatchedOnce s := by
  refine Runs.exists_exec₂ (a := some (7, .dispatching)) (b := some (7, .dispatching))
    (fun s => (s.workers.get 1).map fun w => (w.executionID, w.phase))
    (fun s => (s.workers.get 4).map fun w => (w.executionID, w.phase)) (by decide +kernel)
    fun s hfirst hsecond honce => ?_
  obtain ⟨w, hw, hfirst⟩ := Option.map_eq_some_iff.mp hfirst
  obtain ⟨w', hw', hsecond⟩ := Option.map_eq_some_iff.mp hsecond
  obtain ⟨hid, hphase⟩ := Prod.mk.inj hfirst
  obtain ⟨hid', hphase'⟩ := Prod.mk.inj hsecond
  have hsame : 1 = 4 := honce 1 4 w w' hw hw' hphase hphase' (hid.trans hid'.symm)
  omega

end Layr.Tasks
