import Layr.Tasks.Poller

/-!
# Scheduling exactly once

A job that is locked by a poll is locked by no other, so the stored value that the poll has read
is still there when it commits: the insert and the advance of `next_run_at` become visible
together, and the value is never met again if the new one is larger. `Next` gives a larger one
wherever the location's offset is fixed; where clocks go forward by two hours it may not.
-/

namespace Layr.Tasks.Poller

open Go

variable {jobID : JobID} {writes : List Write} {poll : Poll} {poller : ℕ}

/-! ## The invariant -/

/-- The jobs of a poll, scheduled or not. -/
def Poll.jobIDs (poll : Poll) : List JobID :=
  poll.dueJobs.map Prod.fst ++ poll.writes.map Write.jobID

/-- A write is for the value that is still stored, and moves it forward. -/
def WriteOK (jobs : Table JobID Job) (write : Write) : Prop :=
  ∃ job, jobs.get write.jobID = some job ∧ job.nextRunAt = write.scheduled.due ∧
    write.scheduled.due < write.nextRunAt ∧
    write.scheduled.execution.jobID = some write.jobID

/-- A poll has each of its jobs once, locked, and as it is stored. -/
structure PollOK (jobs : Table JobID Job) (poll : Poll) : Prop where
  nodup : poll.jobIDs.Nodup
  locked : ∀ jobID ∈ poll.jobIDs, jobID ∈ poll.locked
  due : ∀ e ∈ poll.dueJobs, jobs.get e.1 = some e.2
  writes : ∀ write ∈ poll.writes, WriteOK jobs write

structure Inv (s : State) : Prop where
  polls : ∀ poller poll, s.polls.get poller = some poll → PollOK s.jobs poll
  disjoint : ∀ poller poller' poll poll' jobID, s.polls.get poller = some poll →
    s.polls.get poller' = some poll' → jobID ∈ poll.locked → jobID ∈ poll'.locked →
    poller = poller'
  once : ExactlyOnce s

theorem inv_initial (now : ℤ) (jobs : Table JobID Job) : Inv (initial now jobs) where
  polls _ _ h := by cases h
  disjoint _ _ _ _ _ h := by cases h
  once jobID job _ := by
    refine ⟨fun due => rfl, ?_⟩
    exact List.pairwise_singleton _ _

/-! ## Writes that become visible -/

section

variable {s s' : State} {write : Write}

theorem get_apply (h : s.apply write = some s') (hne : jobID ≠ write.jobID) :
    s'.jobs.get jobID = s.jobs.get jobID := by
  obtain ⟨executions, -, rfl⟩ := Option.map_eq_some_iff.mp h
  exact (Table.get_update _ _ _ _).trans (if_neg hne)

theorem polls_apply (h : s.apply write = some s') : s'.polls = s.polls := by
  obtain ⟨executions, -, rfl⟩ := Option.map_eq_some_iff.mp h
  rfl

theorem createdFor_apply (h : s.apply write = some s')
    (hjob : write.scheduled.execution.jobID = some write.jobID) (jobID : JobID) (due : ℤ) :
    s'.createdFor jobID due = s.createdFor jobID due +
      if write.jobID = jobID ∧ write.scheduled.due = due then 1 else 0 := by
  obtain ⟨executions, hinsert, rfl⟩ := Option.map_eq_some_iff.mp h
  simp only [State.createdFor, Table.rows_insert hinsert, List.countP_cons, hjob,
    Bool.and_eq_true, decide_eq_true_eq, Option.some.injEq]

/-- The value moves on, and has its execution. -/
theorem ExactlyOnce.apply (honce : ExactlyOnce s) (hok : WriteOK s.jobs write)
    (h : s.apply write = some s') : ExactlyOnce s' := by
  obtain ⟨job, hget, hstored, hforward, hjob⟩ := hok
  obtain ⟨hcount, hsorted⟩ := honce write.jobID job hget
  -- earlier values are smaller than the one that is moved on from
  have hfresh : write.scheduled.due ∉ s.moved write.jobID := by
    intro hmem
    have hlt := (List.pairwise_cons.mp hsorted).1 _ hmem
    omega
  have hcreated := createdFor_apply h hjob
  obtain ⟨executions, -, rfl⟩ := Option.map_eq_some_iff.mp h
  intro jobID job' hget'
  have hget' : (s.jobs.update write.jobID fun job =>
      { job with lastRunAt := some write.lastRunAt, nextRunAt := write.nextRunAt }).get jobID =
      some job' := hget'
  rw [Table.get_update] at hget'
  by_cases heq : jobID = write.jobID
  · subst heq
    rw [if_pos rfl, hget, Option.map_some] at hget'
    have hmoved : Function.update s.moved write.jobID
        ((s.jobs.get write.jobID).toList.map Job.nextRunAt ++ s.moved write.jobID) write.jobID =
        write.scheduled.due :: s.moved write.jobID := by
      rw [Function.update_self, hget, ← hstored]
      rfl
    simp only [hmoved]
    refine ⟨?_, ?_⟩
    · intro due
      rw [hcreated, hcount due]
      by_cases hdue : due = write.scheduled.due
      · rw [hdue, if_neg hfresh]
        simp
      · simp [hdue, Ne.symm hdue]
    · cases hget'
      refine List.pairwise_cons.mpr ⟨?_, hstored ▸ hsorted⟩
      intro due hmem
      show due < write.nextRunAt
      rcases List.mem_cons.mp hmem with rfl | hmem
      · exact hforward
      · have hlt := (List.pairwise_cons.mp hsorted).1 _ hmem
        omega
  · rw [if_neg heq] at hget'
    obtain ⟨hcount', hsorted'⟩ := honce jobID job' hget'
    simp only [Function.update_of_ne heq]
    refine ⟨?_, hsorted'⟩
    intro due
    have hother : ¬(write.jobID = jobID ∧ write.scheduled.due = due) :=
      fun hsame => heq hsame.1.symm
    rw [hcreated, if_neg hother, add_zero, hcount' due]

/-- The writes of one poll, each for another job. -/
theorem applyAll_spec (honce : ExactlyOnce s) (hnodup : (writes.map Write.jobID).Nodup)
    (hok : ∀ write ∈ writes, WriteOK s.jobs write) (h : s.applyAll writes = some s') :
    ExactlyOnce s' ∧ s'.polls = s.polls ∧
      ∀ jobID, jobID ∉ writes.map Write.jobID → s'.jobs.get jobID = s.jobs.get jobID := by
  induction writes generalizing s with
  | nil =>
    cases h
    exact ⟨honce, rfl, fun _ _ => rfl⟩
  | cons write writes ih =>
    obtain ⟨s₁, happly, hrest⟩ := Option.bind_eq_some_iff.mp h
    obtain ⟨hnotmem, hnodup⟩ := List.nodup_cons.mp (List.map_cons ▸ hnodup)
    have honce₁ := honce.apply (hok write (by simp)) happly
    have hok₁ : ∀ write' ∈ writes, WriteOK s₁.jobs write' := by
      intro write' hmem
      obtain ⟨job, hget, hfacts⟩ := hok write' (List.mem_cons_of_mem _ hmem)
      have hne : write'.jobID ≠ write.jobID := by
        intro heq
        exact hnotmem (heq ▸ List.mem_map_of_mem hmem)
      exact ⟨job, (get_apply happly hne).trans hget, hfacts⟩
    obtain ⟨honce', hpolls, hjobs⟩ := ih honce₁ hnodup hok₁ hrest
    refine ⟨honce', hpolls.trans (polls_apply happly), ?_⟩
    intro jobID hmem
    rw [List.map_cons, List.mem_cons, not_or] at hmem
    exact (hjobs jobID hmem.2).trans (get_apply happly hmem.1)

end

/-! ## Steps -/

section

variable {s s' : State}

/-- The poll stays right as long as its jobs do. -/
theorem PollOK.of_jobs {jobs jobs' : Table JobID Job} (hok : PollOK jobs poll)
    (h : ∀ jobID ∈ poll.locked, jobs'.get jobID = jobs.get jobID) : PollOK jobs' poll where
  nodup := hok.nodup
  locked := hok.locked
  due e he := by
    have hmem : e.1 ∈ poll.jobIDs := List.mem_append_left _ (List.mem_map_of_mem he)
    rw [h _ (hok.locked _ hmem), hok.due e he]
  writes write hwrite := by
    obtain ⟨job, hget, hfacts⟩ := hok.writes write hwrite
    have hmem : write.jobID ∈ poll.jobIDs := List.mem_append_right _ (List.mem_map_of_mem hwrite)
    exact ⟨job, (h _ (hok.locked _ hmem)).trans hget, hfacts⟩

/-- A change of one poll that keeps its locks. -/
theorem Inv.update (hinv : Inv s) {f : Poll → Poll} (hpoll : s.polls.get poller = some poll)
    (hlocked : (f poll).locked = poll.locked) (hok : PollOK s.jobs (f poll)) :
    Inv { s with polls := s.polls.update poller f } := by
  have hcases : ∀ {p q}, (s.polls.update poller f).get p = some q →
      ∃ q₀, s.polls.get p = some q₀ ∧ q.locked = q₀.locked ∧ PollOK s.jobs q := by
    intro p q hget
    rw [Table.get_update] at hget
    split at hget
    next heq =>
      rw [heq, hpoll, Option.map_some] at hget
      rw [← Option.some.inj hget, heq]
      exact ⟨poll, hpoll, hlocked, hok⟩
    · exact ⟨q, hget, rfl, hinv.polls p q hget⟩
  refine ⟨?_, ?_, hinv.once⟩
  · intro p q hget
    obtain ⟨-, -, -, hq⟩ := hcases hget
    exact hq
  · intro p p' q q' jobID hget hget' hmem hmem'
    obtain ⟨q₀, hq₀, hlock, -⟩ := hcases hget
    obtain ⟨q₀', hq₀', hlock', -⟩ := hcases hget'
    exact hinv.disjoint p p' q₀ q₀' jobID hq₀ hq₀' (hlock ▸ hmem) (hlock' ▸ hmem')

/-- A poll that ends without its writes. -/
theorem Inv.delete (hinv : Inv s) (poller : ℕ) :
    Inv { s with polls := s.polls.delete poller } := by
  refine ⟨fun p q hget => hinv.polls p q (Table.get_of_delete hget).2, ?_, hinv.once⟩
  intro p p' q q' jobID hget hget'
  exact hinv.disjoint p p' q q' jobID (Table.get_of_delete hget).2 (Table.get_of_delete hget').2

theorem isLocked_eq_false (h : s.isLocked jobID = false) (hpoll : s.polls.get poller = some poll) :
    jobID ∉ poll.locked := by
  intro hmem
  have hrow : (poller, poll) ∈ s.polls.rows := Table.get_eq_some_iff.mp hpoll
  have hany := List.any_eq_false.mp h _ hrow
  exact hany (by simpa using hmem)

/-- The locks of a new poll are those that no other poll holds. -/
theorem Inv.begin (hinv : Inv s) {polls : Table ℕ Poll}
    (h : s.polls.insert poller ⟨s.selected.map Prod.fst, s.selected, [], false⟩ = some polls) :
    Inv { s with polls := polls } := by
  have hselected : ∀ e ∈ s.selected, s.jobs.get e.1 = some e.2 ∧ s.isLocked e.1 = false := by
    intro e he
    obtain ⟨hrow, hcond⟩ := List.mem_filter.mp he
    obtain ⟨-, hfree⟩ := Bool.and_eq_true_iff.mp hcond
    exact ⟨Table.get_eq_some_iff.mpr hrow, by simpa using hfree⟩
  have hnew : PollOK s.jobs ⟨s.selected.map Prod.fst, s.selected, [], false⟩ := by
    refine ⟨?_, ?_, fun e he => (hselected e he).1, ?_⟩
    · rw [Poll.jobIDs, List.map_nil, List.append_nil]
      exact s.jobs.nodup.sublist (List.filter_sublist.map Prod.fst)
    · intro jobID hmem
      rwa [Poll.jobIDs, List.map_nil, List.append_nil] at hmem
    · rintro write ⟨⟩
  have hcases : ∀ {p q}, polls.get p = some q →
      (p = poller ∧ q = ⟨s.selected.map Prod.fst, s.selected, [], false⟩) ∨
        s.polls.get p = some q := by
    intro p q hget
    rw [Table.get_insert h] at hget
    split at hget
    next heq => exact .inl ⟨heq, (Option.some.inj hget).symm⟩
    · exact .inr hget
  have hfree : ∀ {p q jobID}, s.polls.get p = some q → jobID ∈ s.selected.map Prod.fst →
      jobID ∉ q.locked := by
    intro p q jobID hget hmem
    obtain ⟨e, he, rfl⟩ := List.mem_map.mp hmem
    exact isLocked_eq_false (hselected e he).2 hget
  refine ⟨?_, ?_, hinv.once⟩
  · intro p q hget
    rcases hcases hget with ⟨-, rfl⟩ | hget
    · exact hnew
    · exact hinv.polls p q hget
  · intro p p' q q' jobID hget hget' hmem hmem'
    rcases hcases hget with ⟨rfl, rfl⟩ | hget <;> rcases hcases hget' with ⟨rfl, rfl⟩ | hget'
    · rfl
    · exact absurd hmem' (hfree hget' hmem)
    · exact absurd hmem (hfree hget hmem')
    · exact hinv.disjoint p p' q q' jobID hget hget' hmem hmem'

/-- The commit changes the jobs that the poll has locked, and no other poll's. -/
theorem Inv.commit (hinv : Inv s) (hpoll : s.polls.get poller = some poll)
    (h : State.applyAll { s with polls := s.polls.delete poller } poll.writes = some s') :
    Inv s' := by
  have hdropped := hinv.delete poller
  have hok := hinv.polls poller poll hpoll
  have hnodup : (poll.writes.map Write.jobID).Nodup := (List.nodup_append.mp hok.nodup).2.1
  obtain ⟨honce, hpolls, hjobs⟩ := applyAll_spec hdropped.once hnodup hok.writes h
  refine ⟨?_, ?_, honce⟩
  · intro p q hget
    rw [hpolls] at hget
    refine (hdropped.polls p q hget).of_jobs ?_
    intro jobID hlocked
    apply hjobs
    intro hmem
    -- the poll that commits has locked the job, so it would be the other poll
    have hown : jobID ∈ poll.locked := hok.locked jobID (List.mem_append_right _ hmem)
    obtain ⟨hne, hget'⟩ := Table.get_of_delete hget
    exact hne (hinv.disjoint p poller q poll jobID hget' hpoll hlocked hown)
  · intro p p' q q' jobID hget hget'
    rw [hpolls] at hget hget'
    exact hdropped.disjoint p p' q q' jobID hget hget'

/-- What a regular poller writes for a job moves it forward. -/
theorem writeOK_of_scheduleJob {loadLocation : String → Option Time.Location} {job : Job} {fuel : ℕ}
    {now : ℤ} {executionID : ExecutionID} {maxAttempts : ℤ} (hjob : s.jobs.get jobID = some job)
    (hregular : (job.nextRunAt < now || match parseCron job.cronExpression with
      | .error _ => true
      | .ok schedule =>
        decide ((timezoneLocation loadLocation job).changes = []) &&
          avoidsZero schedule (timezoneLocation loadLocation job) now fuel fuel job.nextRunAt) =
        true)
    (h : scheduleJob loadLocation s jobID job fuel now executionID maxAttempts = some writes) :
    (writes = [] ∨ ∃ write, writes = [write] ∧ write.jobID = jobID) ∧
      ∀ write ∈ writes, WriteOK s.jobs write := by
  unfold scheduleJob at h
  cases hparse : parseCron job.cronExpression with
  | error message =>
    rw [hparse] at h
    cases h
    exact ⟨.inl rfl, by rintro write ⟨⟩⟩
  | ok =>
    simp only [hparse] at h hregular
    obtain ⟨nextRunAt, hnext, rfl⟩ := Option.map_eq_some_iff.mp h
    refine ⟨.inr ⟨_, rfl, rfl⟩, ?_⟩
    intro write hmem
    rw [List.mem_singleton.mp hmem]
    refine ⟨job, hjob, rfl, ?_, rfl⟩
    show job.nextRunAt < nextRunAt
    rcases (Bool.or_eq_true _ _).mp hregular with hpast | hfixed
    · have hpast : job.nextRunAt < now := of_decide_eq_true hpast
      have hle := le_newNextRunAt hnext
      omega
    · obtain ⟨hchanges, hzero⟩ := Bool.and_eq_true_iff.mp hfixed
      exact lt_newNextRunAt (of_decide_eq_true hchanges) hzero hnext

/-- A due job becomes a write. -/
theorem PollOK.schedule {jobs : Table JobID Job} (hok : PollOK jobs poll) {job : Job}
    {dueJobs : List (JobID × Job)} (hdue : poll.dueJobs = (jobID, job) :: dueJobs)
    (hwrites : writes = [] ∨ ∃ write, writes = [write] ∧ write.jobID = jobID)
    (hwriteOK : ∀ write ∈ writes, WriteOK jobs write) :
    PollOK jobs { poll with dueJobs := dueJobs, writes := poll.writes ++ writes } := by
  have hids : poll.jobIDs = jobID :: (dueJobs.map Prod.fst ++ poll.writes.map Write.jobID) := by
    rw [Poll.jobIDs, hdue]
    rfl
  -- the identifiers of the jobs are the old ones in another order, or one less
  have hsub : List.Subperm
      ({ poll with dueJobs := dueJobs, writes := poll.writes ++ writes } : Poll).jobIDs
      poll.jobIDs := by
    rw [hids]
    show (dueJobs.map Prod.fst ++ (poll.writes ++ writes).map Write.jobID).Subperm _
    rw [List.map_append, ← List.append_assoc]
    rcases hwrites with rfl | ⟨write, rfl, rfl⟩
    · rw [List.map_nil, List.append_nil]
      exact (List.sublist_cons_self _ _).subperm
    · exact (List.perm_append_singleton _ _).subperm
  refine ⟨?_, ?_, ?_, ?_⟩
  · obtain ⟨l, hperm, hl⟩ := hsub
    exact (hperm.nodup_iff).mp (hok.nodup.sublist hl)
  · intro id hmem
    exact hok.locked id (hsub.subset hmem)
  · intro e he
    exact hok.due e (hdue ▸ List.mem_cons_of_mem _ he)
  · intro write hmem
    rcases List.mem_append.mp hmem with hold | hnew
    · exact hok.writes write hold
    · exact hwriteOK write hnew

theorem Inv.step {loadLocation : String → Option Time.Location} {label : Label} (hinv : Inv s)
    (hregular : isRegular loadLocation s label)
    (h : step loadLocation s label = some s') : Inv s' := by
  cases label with
  | wait =>
    cases h
    exact ⟨hinv.polls, hinv.disjoint, hinv.once⟩
  | begin poller =>
    obtain ⟨polls, hinsert, rfl⟩ := Option.map_eq_some_iff.mp h
    exact hinv.begin hinsert
  | schedule poller =>
    obtain ⟨poll, hpoll, h⟩ := Option.bind_eq_some_iff.mp h
    cases hdue : poll.dueJobs with
    | nil =>
      rw [hdue] at h
      cases h
    | cons e dueJobs =>
      obtain ⟨jobID, job⟩ := e
      rw [hdue] at h
      obtain ⟨writes, hschedule, rfl⟩ := Option.map_eq_some_iff.mp h
      have hok := hinv.polls poller poll hpoll
      have hjob : s.jobs.get jobID = some job := hok.due (jobID, job) (hdue ▸ List.mem_cons_self)
      have hregular' := hregular
      simp only [isRegular, hpoll, Option.bind_some, hdue, List.head?_cons] at hregular'
      obtain ⟨hwrites, hwriteOK⟩ := writeOK_of_scheduleJob hjob hregular' hschedule
      exact hinv.update hpoll rfl (hok.schedule hdue hwrites hwriteOK)
  | fail poller =>
    obtain ⟨poll, hpoll, rfl⟩ := Option.map_eq_some_iff.mp h
    have hok := hinv.polls poller poll hpoll
    exact hinv.update hpoll rfl ⟨hok.nodup, hok.locked, hok.due, hok.writes⟩
  | commit poller =>
    obtain ⟨poll, hpoll, h⟩ := Option.bind_eq_some_iff.mp h
    split at h
    · cases h
    split at h
    · cases h
      exact hinv.delete poller
    · exact hinv.commit hpoll h
  | rollback poller =>
    obtain ⟨poll, -, rfl⟩ := Option.map_eq_some_iff.mp h
    exact hinv.delete poller

end

/-! ## Runs -/

/-- In every run of any number of pollers whose clocks are past the stored values when they schedule
them, or whose jobs have locations with one offset and schedules that `Next` can serve, every
value that `next_run_at` has moved on from has exactly one execution, and the values increase. -/
theorem polls_exactlyOnce {loadLocation : String → Option Time.Location} {now : ℤ}
    {jobs : Table JobID Job} {s : State}
    (hrun : Runs.Run (step loadLocation) (fun s label => isRegular loadLocation s label)
      (initial now jobs) s) : ExactlyOnce s := by
  have hinv : Inv s :=
    Runs.Run.invariant (inv_initial now jobs)
      (fun _ _ _ hs hregular hstep => Inv.step hs hregular hstep) hrun
  exact hinv.once

/-- A job that runs every day. -/
def dailyJob (timezone : String) (nextRunAt : ℤ) : Job where
  name := "daily"
  cronExpression := "0 0 * * *"
  timezone := timezone
  targetType := "sql"
  targetPayload := "p"
  isEnabled := true
  lastRunAt := none
  nextRunAt := nextRunAt

/-- A zone database with a single entry. In 2010 the clocks of this zone were put forward by two
hours, from UTC-7 to UTC-5, at two o'clock in the morning of April 4. -/
def zones : String → Option Time.Location
  | "America/Bahia_Banderas" => some ⟨-25200, [(1270371600, -18000)]⟩
  | _ => none

/-- Midnight of April 4 in that zone. -/
def midnight : ℤ := 1270364400 * Time.second

/-- One job. -/
def oneJob (job : Job) : Table JobID Job := ⟨[(7, job)], List.nodup_singleton _⟩

/-- Two pollers on one due job: the second finds it locked, and the third poll finds it no longer
due. -/
def overlappingRun : List Label :=
  [.begin 1, .begin 2, .schedule 1 70 (midnight + 1) 10 5, .commit 2, .commit 1, .begin 3,
   .commit 3]

theorem overlappingRun_exactlyOnce : ∃ s,
    Runs.exec (step zones) (initial midnight (oneJob (dailyJob "UTC" midnight))) overlappingRun =
        some s ∧
      s.createdFor 7 midnight = 1 ∧ s.moved 7 = [midnight] ∧ ExactlyOnce s :=
  Runs.exists_exec_run (fun s => (s.createdFor 7 midnight, s.moved 7)) (by decide +kernel)
    (by decide +kernel) fun _ hrun hs =>
      ⟨(Prod.mk.inj hs).1, (Prod.mk.inj hs).2, polls_exactlyOnce hrun⟩

/-- Two polls one after the other, at midnight. The start of the hour behind the one in which the
candidate of `Next` is does not exist on this day, and `Date` resolves it to midnight itself. -/
def midnightRun : List Label :=
  [.begin 1, .schedule 1 70 midnight 10 5, .commit 1,
   .begin 1, .schedule 1 70 midnight 11 5, .commit 1]

/-- The job is scheduled twice for the same value, which does not move. -/
theorem midnightRun_not_exactlyOnce : ∃ s,
    Runs.exec (step zones)
        (initial midnight (oneJob (dailyJob "America/Bahia_Banderas" midnight))) midnightRun =
        some s ∧
      s.createdFor 7 midnight = 2 ∧ (s.jobs.get 7).map Job.nextRunAt = some midnight ∧
      ¬ExactlyOnce s := by
  refine Runs.exists_exec₂ (fun s => s.createdFor 7 midnight)
    (fun s => (s.jobs.get 7).map Job.nextRunAt) (by decide +kernel)
    fun s hcreated hnext => ⟨hcreated, hnext, ?_⟩
  intro honce
  obtain ⟨job, hjob, -⟩ := Option.map_eq_some_iff.mp hnext
  have hcount := (honce 7 job hjob).1 midnight
  rw [hcreated] at hcount
  split at hcount <;> omega

end Layr.Tasks.Poller
