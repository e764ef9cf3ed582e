import Layr.Core.ServiceAccounts
import Layr.Lib.Runs

/-!
# The last root account

`Update` and `Delete` run up to three statements: they read the account, count the other root
accounts where they might take one away, and write. Statements of other administrators run in
between, so the count and the account may be outdated when the write comes. Where what was read
still holds, and scopes that pass for the root scope contain it, a root account remains.
-/

namespace Layr.Core.RootSafety

open Go

/-! ## The system -/

inductive Operation
  | update (id : String) (input : UpdateServiceAccountInput)
  | delete (id : String)
  deriving DecidableEq, Repr

def Operation.id : Operation → String
  | .update id _ => id
  | .delete id => id

/-- The operation counts the other root accounts before it writes. -/
def Operation.needsRoot (current : ServiceAccount) : Operation → Bool
  | .update _ input => updateNeedsRoot current input
  | .delete _ => deleteNeedsRoot current

/-- The statement that writes. -/
def Operation.write (accounts : Accounts) (current : ServiceAccount) : Operation → Accounts
  | .update id input => applyUpdate accounts id current input
  | .delete id => accounts.delete id

/-- `Delete` refuses an account of a console user when it has read it. -/
def Operation.isRefused (current : ServiceAccount) : Operation → Bool
  | .update _ _ => false
  | .delete _ => isConsoleOwned current

/-- An operation that has read its account, before or behind the count. -/
structure Pending where
  operation : Operation
  current : ServiceAccount
  counted : Bool
  deriving DecidableEq, Repr

structure State where
  accounts : Accounts
  pending : Table ℕ Pending

inductive Label
  | create (input : CreateServiceAccountInput) (id keyPrefix keyHash : String)
  /-- An administrator begins an operation: the query for the account. -/
  | read (admin : ℕ) (operation : Operation)
  /-- The count of the other root accounts. -/
  | count (admin : ℕ)
  | write (admin : ℕ)

def step (s : State) : Label → Option State
  | .create input id keyPrefix keyHash =>
    match create s.accounts input id keyPrefix keyHash with
    | .error _ => some s
    | .ok accounts => some { s with accounts := accounts }
  | .read admin operation =>
    match s.accounts.get operation.id with
    | none => some s
    | some current =>
      if operation.isRefused current then some s
      else
        (s.pending.insert admin ⟨operation, current, !operation.needsRoot current⟩).map
          fun pending => { s with pending := pending }
  | .count admin =>
    match s.pending.get admin with
    | none => none
    | some p =>
      if p.counted then none
      else if otherRootExists s.accounts p.operation.id then
        some { s with pending := s.pending.update admin fun p => { p with counted := true } }
      else some { s with pending := s.pending.delete admin }
  | .write admin =>
    match s.pending.get admin with
    | none => none
    | some p =>
      if p.counted then
        some
          { s with
            accounts := p.operation.write s.accounts p.current
            pending := s.pending.delete admin }
      else none

/-- What the operation has read still holds: its account, and another root account if it has counted
them. -/
def stillHolds (s : State) (p : Pending) : Bool :=
  s.accounts.get p.operation.id = some p.current &&
    (!p.operation.needsRoot p.current || otherRootExists s.accounts p.operation.id)

/-- New scopes that pass for the root scope contain it. -/
def namesRoot : Operation → Bool
  | .update _ input => !hasScope input.scopes scopeRoot || input.scopes.contains scopeRoot
  | .delete _ => true

def isCurrent (s : State) : Label → Bool
  | .write admin => (s.pending.get admin).all fun p => stillHolds s p && namesRoot p.operation
  | _ => true

/-! ## The invariant -/

variable {accounts accounts' : Accounts} {id : String}

theorem hasRoot_of_other (h : otherRootExists accounts id)
    (hothers : ∀ id', id' ≠ id → accounts'.get id' = accounts.get id') : HasRoot accounts' := by
  obtain ⟨id', account, hne, hget, hroot⟩ := otherRootExists_iff.mp h
  exact ⟨id', account, (hothers id' hne).trans hget, hroot⟩

theorem hasRoot_create {input : CreateServiceAccountInput} {keyPrefix keyHash : String}
    (h : HasRoot accounts) (hcreate : create accounts input id keyPrefix keyHash = .ok accounts') :
    HasRoot accounts' := by
  obtain ⟨rootID, account, hget, hroot⟩ := h
  unfold create at hcreate
  split at hcreate
  · cases hcreate
  dsimp only at hcreate
  split at hcreate
  · cases hcreate
  · next hinsert =>
    rw [Except.ok.injEq] at hcreate
    subst hcreate
    exact ⟨rootID, account, Table.get_insert_of_get hinsert hget, hroot⟩

/-- An update of a current root account that has not counted leaves it a root account. -/
theorem isRoot_applyUpdate {current : ServiceAccount} {input : UpdateServiceAccountInput}
    (hget : accounts.get id = some current) (hroot : IsRoot current)
    (hneeds : updateNeedsRoot current input = false) (hnames : namesRoot (.update id input)) :
    ∃ account, (applyUpdate accounts id current input).get id = some account ∧ IsRoot account := by
  obtain ⟨henabled, hscope⟩ := hroot
  have hcurrent : hasScope current.scopes scopeRoot := hasScope_of_root_mem hscope scopeRoot
  rw [updateNeedsRoot, hcurrent, Bool.true_and, Bool.or_eq_false_iff] at hneeds
  obtain ⟨hkeeps, hscopes⟩ := hneeds
  refine ⟨_, Table.get_update_self hget _, ?_, ?_⟩
  · -- it is not disabled
    show input.isEnabled.getD current.isEnabled
    rcases hinput : input.isEnabled with _ | enabled
    · exact henabled
    · cases enabled
      · rw [hinput] at hkeeps
        cases hkeeps
      · rfl
  · -- it keeps its scopes or is given the root scope
    show scopeRoot ∈ if input.scopes = [] then current.scopes else input.scopes
    split_ifs with hempty
    · exact hscope
    · have hpasses : hasScope input.scopes scopeRoot := by simpa [hempty] using hscopes
      rw [namesRoot, hpasses] at hnames
      simpa using hnames

theorem hasRoot_write {operation : Operation} {current : ServiceAccount} (h : HasRoot accounts)
    (hget : accounts.get operation.id = some current)
    (hcounted : operation.needsRoot current →
      otherRootExists accounts operation.id) (hnames : namesRoot operation) :
    HasRoot (operation.write accounts current) := by
  have hothers : ∀ id, id ≠ operation.id →
      (operation.write accounts current).get id = accounts.get id := by
    intro id hne
    cases operation with
    | update => exact (Table.get_update ..).trans (if_neg hne)
    | delete id' => exact (Table.get_delete ..).trans (if_neg hne)
  by_cases hneeds : operation.needsRoot current
  · exact hasRoot_of_other (hcounted hneeds) hothers
  · obtain ⟨rootID, account, hrootGet, hroot⟩ := h
    by_cases hself : rootID = operation.id
    · have hcurrent : account = current := by
        rw [hself, hget] at hrootGet
        exact (Option.some.inj hrootGet).symm
      rw [hcurrent] at hroot
      cases operation with
      | update id input =>
        obtain ⟨account', hget', hroot'⟩ := isRoot_applyUpdate hget hroot
          (by simpa [Operation.needsRoot] using hneeds) hnames
        exact ⟨id, account', hget', hroot'⟩
      | delete id =>
        -- a root account is only deleted behind the count
        exact absurd (hasScope_of_root_mem hroot.2 scopeRoot) hneeds
    · exact ⟨rootID, account, (hothers rootID hself).trans hrootGet, hroot⟩

def State.HasRoot (s : State) : Prop := Core.HasRoot s.accounts

theorem hasRoot_step {s s' : State} {label : Label} (h : s.HasRoot)
    (hcurrent : isCurrent s label) (hstep : step s label = some s') : s'.HasRoot := by
  cases label with
  | create =>
    rw [step] at hstep
    split at hstep
    · cases hstep
      exact h
    · next hcreate =>
      cases hstep
      exact hasRoot_create h hcreate
  | read =>
    rw [step] at hstep
    split at hstep
    · cases hstep
      exact h
    · split_ifs at hstep
      · cases hstep
        exact h
      · obtain ⟨pending, -, rfl⟩ := Option.map_eq_some_iff.mp hstep
        exact h
  | count admin =>
    rw [step] at hstep
    split at hstep
    · cases hstep
    · split_ifs at hstep
      · cases hstep
        exact h
      · cases hstep
        exact h
  | write admin =>
    -- what was read and counted earlier still holds when it is written
    rw [step] at hstep
    rw [isCurrent] at hcurrent
    split at hstep
    · cases hstep
    · next p hp =>
      split_ifs at hstep
      cases hstep
      rw [hp, Option.all_some, stillHolds, Bool.and_eq_true, Bool.and_eq_true,
        decide_eq_true_eq] at hcurrent
      obtain ⟨⟨hget, hcounted⟩, hnames⟩ := hcurrent
      refine hasRoot_write h hget (fun hneeds => ?_) hnames
      simpa [hneeds] using hcounted

/-- Whatever the administrators do, a root account remains as long as every write finds what its
operation has read. -/
theorem root_remains {start s : State} (hstart : start.HasRoot)
    (hrun : Runs.Run step (fun s label => isCurrent s label) start s) : s.HasRoot :=
  hrun.invariant hstart fun _ _ _ hroot hcurrent hstep => hasRoot_step hroot hcurrent hstep

/-! ## Runs -/

def rootAccount (name : String) : ServiceAccount :=
  ⟨none, name, none, "", "", ["*"], true, [], none⟩

/-- Two root accounts. -/
def twoRoots : State :=
  ⟨⟨[("a", rootAccount "a"), ("b", rootAccount "b")], by simp⟩, .empty⟩

theorem twoRoots_hasRoot : twoRoots.HasRoot :=
  ⟨"a", rootAccount "a", by decide +kernel, rfl, List.mem_singleton_self _⟩

/-- One account is deleted, and the deletion of the other is refused. -/
def deletedInTurn : List Label :=
  [.read 0 (.delete "a"), .count 0, .write 0, .read 1 (.delete "b"), .count 1]

theorem deletedInTurn_keeps_root :
    ∃ s, Runs.Run step (fun s label => isCurrent s label) twoRoots s ∧
      s.accounts.rows.map Prod.fst = ["b"] ∧ s.HasRoot :=
  Runs.exists_run deletedInTurn (fun s => s.accounts.rows.map Prod.fst) (by decide +kernel)
    (by decide +kernel) fun _ hrun hrows => ⟨hrows, root_remains twoRoots_hasRoot hrun⟩

/-- Two administrators delete one account each, and both count before either deletes. -/
def deletedAtOnce : List Label :=
  [.read 0 (.delete "a"), .read 1 (.delete "b"), .count 0, .count 1, .write 0, .write 1]

/-- One administrator gives both accounts scopes that pass for the root scope. -/
def renamedScopes : List Label :=
  let input : UpdateServiceAccountInput := ⟨none, none, ["*:*"], none, none, none⟩
  [.read 0 (.update "a" input), .write 0, .read 0 (.update "b" input), .write 0]

/-- No root account is left, be it by two deletions at once or by one update after the other. -/
theorem roots_lost :
    (∃ s, Runs.exec step twoRoots deletedAtOnce = some s ∧ ¬ s.HasRoot) ∧
      ∃ s, Runs.exec step twoRoots renamedScopes = some s ∧ ¬ s.HasRoot := by
  have hnone : ∀ {s : State},
      s.accounts.rows.any (fun e => e.2.isEnabled && e.2.scopes.contains scopeRoot) = false →
      ¬ s.HasRoot := by
    rintro s hrows ⟨id, account, hget, henabled, hroot⟩
    have hrow := List.any_eq_false.mp hrows (id, account) (Table.get_eq_some_iff.mp hget)
    simp [henabled, hroot] at hrow
  constructor
  · exact Runs.exists_exec _ (by decide +kernel) fun _ => hnone
  · exact Runs.exists_exec _ (by decide +kernel) fun _ => hnone

end Layr.Core.RootSafety
