import Layr.Core.Scopes
import Layr.Lib.Table

/-!
# Service accounts

The rows of `core.service_accounts` and the statements of `ServiceAccountManager`. An update or a
delete of an account with the root scope first counts the other enabled accounts with it.
The times at which a row was made, changed and used are left out.
-/

namespace Layr.Core

open Go

structure ServiceAccount where
  consoleUserID : Option String
  name : String
  description : Option String
  keyPrefix : String
  keyHash : String
  scopes : List String
  isEnabled : Bool
  allowedIPs : List String
  expiresAt : Option ℤ
  deriving DecidableEq, Repr

/-- The accounts by their ids. -/
abbrev Accounts := Table String ServiceAccount

inductive ServiceAccountError
  | nameRequired
  | notFound
  | disabled
  | expired
  | ipBlocked
  | rootAccountProtected
  | ownedByConsoleUser
  | createFailed
  deriving DecidableEq, Repr

def ServiceAccountError.message : ServiceAccountError → String
  | .nameRequired => "name is required"
  | .notFound => "service account not found"
  | .disabled => "service account is disabled"
  | .expired => "service account has expired"
  | .ipBlocked => "request IP not allowed for this service account"
  | .rootAccountProtected =>
    "cannot delete or revoke the last root account with wildcard * scope"
  | .ownedByConsoleUser =>
    "cannot delete service account owned by a console user; delete the console user instead"
  | .createFailed => "failed to create service account"

/-! ## Create -/

structure CreateServiceAccountInput where
  name : String
  description : Option String
  scopes : List String
  allowedIPs : List String
  expiresAt : Option ℤ
  consoleUserID : Option String
  deriving DecidableEq, Repr

/-- `Create`, with the id and the key that it draws. -/
def create (accounts : Accounts) (input : CreateServiceAccountInput)
    (id keyPrefix keyHash : String) : Except ServiceAccountError Accounts :=
  if Strings.trimSpace input.name = "" then .error .nameRequired
  else
    let scopes := if input.scopes = [] then [scopeRoot] else input.scopes
    match accounts.insert id ⟨input.consoleUserID, input.name, input.description, keyPrefix,
      keyHash, scopes, true, input.allowedIPs, input.expiresAt⟩ with
    | none => .error .createFailed
    | some accounts => .ok accounts

/-! ## Update and delete, by their statements -/

structure UpdateServiceAccountInput where
  name : Option String
  description : Option String
  scopes : List String
  isEnabled : Option Bool
  allowedIPs : Option (List String)
  expiresAt : Option ℤ
  deriving DecidableEq, Repr

/-- `assertOtherRootExists`: another enabled account has the root scope among its scopes. -/
def otherRootExists (accounts : Accounts) (id : String) : Bool :=
  accounts.rows.any fun e => e.1 ≠ id && e.2.isEnabled && e.2.scopes.contains scopeRoot

/-- `Update` asks for another root account before it disables one or takes its scope. -/
def updateNeedsRoot (current : ServiceAccount) (input : UpdateServiceAccountInput) : Bool :=
  hasScope current.scopes scopeRoot &&
    (input.isEnabled = some false ||
      (input.scopes ≠ [] && !hasScope input.scopes scopeRoot))

/-- The `UPDATE` of `Update`: what the input leaves open is written as it was read. -/
def applyUpdate (accounts : Accounts) (id : String) (current : ServiceAccount)
    (input : UpdateServiceAccountInput) : Accounts :=
  accounts.update id fun row =>
    { row with
      name := match input.name with
        | some name => if Strings.trimSpace name = "" then current.name else name
        | none => current.name
      description := input.description.or current.description
      scopes := if input.scopes = [] then current.scopes else input.scopes
      isEnabled := input.isEnabled.getD current.isEnabled
      allowedIPs := input.allowedIPs.getD current.allowedIPs
      expiresAt := input.expiresAt.or current.expiresAt }

/-- `Delete` refuses an account of a console user. -/
def isConsoleOwned (account : ServiceAccount) : Bool :=
  match account.consoleUserID with
  | some userID => userID ≠ ""
  | none => false

/-- `Delete` asks for another root account before it deletes one. -/
def deleteNeedsRoot (current : ServiceAccount) : Bool := hasScope current.scopes scopeRoot

/-! ## Root accounts -/

/-- An enabled account with the root scope among its scopes. -/
def IsRoot (account : ServiceAccount) : Prop :=
  account.isEnabled ∧ scopeRoot ∈ account.scopes

/-- Some account is a root account. -/
def HasRoot (accounts : Accounts) : Prop :=
  ∃ id account, accounts.get id = some account ∧ IsRoot account

theorem otherRootExists_iff {accounts : Accounts} {id : String} :
    otherRootExists accounts id ↔
      ∃ id' account, id' ≠ id ∧ accounts.get id' = some account ∧ IsRoot account := by
  rw [otherRootExists, List.any_eq_true]
  constructor
  · rintro ⟨⟨id', account⟩, hmem, h⟩
    simp only [Bool.and_eq_true, decide_eq_true_eq, List.contains_iff_mem] at h
    exact ⟨id', account, h.1.1, Table.get_eq_some_iff.mpr hmem, h.1.2, h.2⟩
  · rintro ⟨id', account, hne, hget, henabled, hroot⟩
    refine ⟨(id', account), Table.get_eq_some_iff.mp hget, ?_⟩
    simp [hne, henabled, hroot]

end Layr.Core
