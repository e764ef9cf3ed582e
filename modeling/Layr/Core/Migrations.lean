import Mathlib.Data.String.Basic
import Layr.Go.Strconv
import Layr.Lib.Codes
import Layr.Lib.Table

/-!
# Database migrations

`MigrateUp` applies the scripts that `core.migrations` does not list yet, in the order of
`sortDatabaseMigrations`. `MigrateDown` takes back the listed ones above a version. Both run in
one transaction, so an error leaves the table as it was. The target is one number for all services.
Of a script only counts whether it runs, and that it does not write `core.migrations` itself.
-/

namespace Layr.Core

open Go

structure DatabaseMigration where
  service : String
  version : ℤ
  description : String
  upSQL : String
  downSQL : String
  deriving DecidableEq, Repr

/-- Service and version, the unique key of `core.migrations`. -/
abbrev MigrationId := String × ℤ

/-- The rows of `core.migrations`, with their descriptions. -/
abbrev AppliedMigrations := Table MigrationId String

/-- The key of a migration in the maps of the code, `service:version`. -/
def migrationKey (id : MigrationId) : String :=
  id.1 ++ ":" ++ String.ofList (Strconv.formatInt id.2)

/-- A migration without a service belongs to the core. -/
def DatabaseMigration.resolved (migration : DatabaseMigration) : DatabaseMigration :=
  if migration.service = "" then { migration with service := "core" } else migration

def DatabaseMigration.id (migration : DatabaseMigration) : MigrationId :=
  (migration.service, migration.version)

inductive MigrationError
  | upFailed (key description text : String)
  | recordFailed (key : String)
  | definitionNotFound (key : String)
  | noDownSQL (key description : String)
  | downFailed (key description text : String)
  deriving DecidableEq, Repr

def MigrationError.message : MigrationError → String
  | .upFailed key description text =>
    "failed Up migration " ++ key ++ " (" ++ description ++ "): " ++ text
  | .recordFailed key =>
    "failed to record migration " ++ key ++ ": ERROR: duplicate key value violates unique " ++
      "constraint \"core_migrations_service_version_key\" (SQLSTATE 23505)"
  | .definitionNotFound key =>
    "cannot rollback migration " ++ key ++ ": definition not found in registry"
  | .noDownSQL key description =>
    "cannot rollback migration " ++ key ++ " (" ++ description ++ "): no DownSQL specified"
  | .downFailed key description text =>
    "failed Down migration " ++ key ++ " (" ++ description ++ "): " ++ text

/-! ## The order -/

/-- The comparison of `sortDatabaseMigrations`: the core first, then by service and version. -/
def migrationLess (a b : DatabaseMigration) : Bool :=
  if a.service ≠ b.service then
    if a.service = "core" then true
    else if b.service = "core" then false
    else a.service < b.service
  else a.version < b.version

/-- What `sortDatabaseMigrations` may make of a list. `sort.Slice` does not promise the order of
equal elements. -/
structure SortedMigrations (migrations sorted : List DatabaseMigration) : Prop where
  perm : sorted.Perm migrations
  ordered : sorted.Pairwise fun a b => migrationLess b a = false

/-! ## `MigrateUp` -/

/-- The table in the transaction, and the migrations whose scripts have run. -/
structure UpProgress where
  rows : AppliedMigrations
  executed : List DatabaseMigration

section

variable (execute : String → Option String) (target : ℤ)

/-- A migration that is above the target, if there is one. -/
def exceeds (migration : DatabaseMigration) : Bool := 0 < target && target < migration.version

/-- The loop of `MigrateUp`, with the keys that are applied. `execute` is the error of a script,
if it fails. -/
def upLoop : List DatabaseMigration → List String → UpProgress → Except MigrationError UpProgress
  | [], _, progress => .ok progress
  | migration :: migrations, applied, progress =>
    let key := migrationKey migration.id
    if key ∈ applied then upLoop migrations applied progress
    -- `break`, although the migrations of other services may follow
    else if exceeds target migration then .ok progress
    else
      match execute migration.upSQL with
      | some text => .error (.upFailed key migration.description text)
      | none =>
        match progress.rows.insert migration.id migration.description with
        | none => .error (.recordFailed key)
        | some rows =>
          upLoop migrations (key :: applied) ⟨rows, progress.executed ++ [migration]⟩

/-- The keys of the rows. -/
def appliedKeys (rows : AppliedMigrations) : List String :=
  rows.rows.map fun row => migrationKey row.1

/-- `MigrateUp` on the sorted migrations. -/
def migrateUp (sorted : List DatabaseMigration) (rows : AppliedMigrations) :
    Except MigrationError UpProgress :=
  upLoop execute target sorted (appliedKeys rows) ⟨rows, []⟩

/-! ## `MigrateDown` -/

/-- The entry of a key in the map of the migrations, where a later one replaces an earlier one. -/
def definitionOf (migrations : List DatabaseMigration) (key : String) : Option DatabaseMigration :=
  migrations.reverse.find? fun migration => migrationKey migration.resolved.id = key

/-- The services of the migrations. -/
def targetServices (migrations : List DatabaseMigration) : List String :=
  migrations.map fun migration => migration.resolved.service

/-- The loop of `MigrateDown` over the rows it has listed. The row of the first core migration is
left to its script, which drops the schema. -/
def downLoop (migrations : List DatabaseMigration) :
    List MigrationId → AppliedMigrations → Except MigrationError AppliedMigrations
  | [], rows => .ok rows
  | entry :: entries, rows =>
    let key := migrationKey entry
    if migrations = [] then .error (.definitionNotFound key)
    else if entry.1 ∉ targetServices migrations then downLoop migrations entries rows
    else
      match definitionOf migrations key with
      | none => .error (.definitionNotFound key)
      | some migration =>
        if 0 < target ∧ entry.2 ≤ target then downLoop migrations entries rows
        else if migration.downSQL = "" then .error (.noDownSQL key migration.description)
        else
          let rows :=
            if migration.service ≠ "core" ∨ migration.version ≠ 1 then rows.delete migration.id
            else rows
          match execute migration.downSQL with
          | some text => .error (.downFailed key migration.description text)
          | none => downLoop migrations entries rows

/-- `MigrateDown`, with the rows in the order in which the query lists them. -/
def migrateDown (migrations : List DatabaseMigration) (listed : List MigrationId)
    (rows : AppliedMigrations) : Except MigrationError AppliedMigrations :=
  downLoop execute target migrations listed rows

end

/-! ## Keys -/

theorem migrationKey_injective : Function.Injective migrationKey := by
  rintro ⟨service, version⟩ ⟨service', version'⟩ h
  have hlist := congrArg String.toList h
  simp only [migrationKey, String.toList_append, String.toList_ofList, List.append_assoc] at hlist
  have hcolon : ∀ i, ':' ∉ Strconv.formatInt i := Strconv.not_mem_formatInt (by decide)
  -- read from behind, the first colon ends the version
  have hreverse := congrArg List.reverse hlist
  simp only [show ":".toList = [':'] from rfl, List.singleton_append, List.reverse_append,
    List.reverse_cons, List.append_assoc] at hreverse
  obtain ⟨hversion, hservice⟩ := Codes.append_cons_inj
    (fun hmem => hcolon _ (List.mem_reverse.mp hmem))
    (fun hmem => hcolon _ (List.mem_reverse.mp hmem)) hreverse
  rw [String.toList_inj.mp (List.reverse_injective hservice),
    Strconv.formatInt_injective (List.reverse_injective hversion)]

/-- A row is there. -/
def Recorded (rows : AppliedMigrations) (id : MigrationId) : Prop := rows.get id ≠ none

instance (rows : AppliedMigrations) (id : MigrationId) : Decidable (Recorded rows id) :=
  inferInstanceAs (Decidable (rows.get id ≠ none))

variable {rows : AppliedMigrations} {id : MigrationId}

theorem recorded_iff : Recorded rows id ↔ id ∈ rows.rows.map Prod.fst := by
  unfold Recorded
  rw [ne_eq, Table.get_eq_none_iff, not_not]

theorem mem_appliedKeys : migrationKey id ∈ appliedKeys rows ↔ Recorded rows id := by
  unfold appliedKeys
  rw [recorded_iff, List.mem_map, List.mem_map]
  constructor
  · rintro ⟨row, hmem, hkey⟩
    exact ⟨row, hmem, migrationKey_injective hkey⟩
  · rintro ⟨row, hmem, rfl⟩
    exact ⟨row, hmem, rfl⟩

theorem recorded_insert {rows' : AppliedMigrations} {description : String}
    (h : rows.insert id description = some rows') (id' : MigrationId) :
    Recorded rows' id' ↔ id' = id ∨ Recorded rows id' := by
  unfold Recorded
  rw [Table.get_insert h]
  by_cases heq : id' = id
  · simp [heq]
  · simp [heq]

theorem recorded_delete (rows : AppliedMigrations) (id id' : MigrationId) :
    Recorded (rows.delete id) id' ↔ id' ≠ id ∧ Recorded rows id' := by
  unfold Recorded
  rw [Table.get_delete]
  by_cases heq : id' = id
  · simp [heq]
  · simp [heq]

/-- The definition of a key is one of the migrations, with this key. -/
theorem definitionOf_spec {migrations : List DatabaseMigration} {migration : DatabaseMigration}
    (h : definitionOf migrations (migrationKey id) = some migration) :
    migration ∈ migrations ∧ migration.resolved.id = id := by
  refine ⟨List.mem_reverse.mp (List.mem_of_find?_eq_some h), ?_⟩
  have hkey := List.find?_some h
  exact migrationKey_injective (of_decide_eq_true hkey)

/-! ## Order lemmas -/

variable {a b : DatabaseMigration}

/-- Migrations that are in no order have the same service and version. -/
theorem migrationLess_or (hne : a.id ≠ b.id) (h : migrationLess a b = false) :
    migrationLess b a := by
  unfold migrationLess at h ⊢
  by_cases hservice : a.service = b.service
  · have hversion : a.version ≠ b.version := fun heq => hne (Prod.ext hservice heq)
    simp only [hservice, ne_eq, not_true_eq_false, if_false, decide_eq_false_iff_not,
      decide_eq_true_eq] at h ⊢
    omega
  · have hservice' : b.service ≠ a.service := fun heq => hservice heq.symm
    simp only [hservice, hservice', ne_eq, not_false_eq_true, if_true] at h ⊢
    by_cases hcore : b.service = "core"
    · rw [if_pos hcore]
    · rw [if_neg hcore] at h ⊢
      by_cases hcore' : a.service = "core"
      · rw [if_pos hcore'] at h
        cases h
      · rw [if_neg hcore'] at h ⊢
        have hle : b.service ≤ a.service := not_lt.mp (of_decide_eq_false h)
        exact decide_eq_true (lt_of_le_of_ne hle hservice')

/-- The order looks at services and versions only. -/
theorem migrationLess_congr {a' b' : DatabaseMigration} (ha : a.id = a'.id) (hb : b.id = b'.id) :
    migrationLess a b = migrationLess a' b' := by
  obtain ⟨hservice, hversion⟩ := Prod.mk.inj ha
  obtain ⟨hservice', hversion'⟩ := Prod.mk.inj hb
  unfold migrationLess
  rw [hservice, hversion, hservice', hversion']

/-- A core migration comes before those of other services. -/
theorem service_eq_core (h : migrationLess b a = false) (hcore : b.service = "core") :
    a.service = "core" := by
  by_contra hne
  have hservice : b.service ≠ a.service := by
    rw [hcore]
    exact fun heq => hne heq.symm
  unfold migrationLess at h
  rw [if_pos hservice, if_pos hcore] at h
  cases h

@[simp] theorem resolved_version (migration : DatabaseMigration) :
    migration.resolved.version = migration.version := by
  unfold DatabaseMigration.resolved
  split <;> rfl

end Layr.Core
