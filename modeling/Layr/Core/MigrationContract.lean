import Layr.Core.Migrations

/-!
# What migrations leave recorded

After `MigrateUp` to a target, every given migration up to it should be recorded, and after
`MigrateDown` none of the given services above it. `MigrateUp` stops at the first pending
migration above the target, so none up to the target may come behind. `MigrateDown` deletes the row
of the service that the definition names, so the definitions have to name theirs.
-/

namespace Layr.Core

open Go

/-! ## Contracts -/

/-- A migration is to be applied: there is no target, or it is not above it. -/
def Wanted (target : ℤ) (migration : DatabaseMigration) : Prop :=
  target = 0 ∨ migration.version ≤ target

/-- What `MigrateUp` promises. -/
structure UpContract (migrations : List DatabaseMigration) (target : ℤ) (rows : AppliedMigrations)
    (progress : UpProgress) : Prop where
  recorded : ∀ id, Recorded progress.rows id ↔
    Recorded rows id ∨ ∃ migration ∈ migrations, migration.resolved.id = id ∧
      Wanted target migration
  executed : ∀ id, id ∈ progress.executed.map DatabaseMigration.id ↔
    Recorded progress.rows id ∧ ¬Recorded rows id
  once : (progress.executed.map DatabaseMigration.id).Nodup
  given : ∀ migration ∈ progress.executed, migration ∈ migrations.map DatabaseMigration.resolved
  coreFirst : progress.executed.Pairwise fun a b => b.service = "core" → a.service = "core"

/-- What `MigrateDown` promises. -/
def DownContract (migrations : List DatabaseMigration) (target : ℤ)
    (rows rows' : AppliedMigrations) : Prop :=
  ∀ id, Recorded rows' id ↔
    Recorded rows id ∧ ¬(id.1 ∈ targetServices migrations ∧ target < id.2)

/-- Pending migrations up to the target come before those above it. -/
def UpOrdered (migrations : List DatabaseMigration) (target : ℤ) (rows : AppliedMigrations) :
    Prop :=
  ∀ above ∈ migrations, ∀ wanted ∈ migrations, exceeds target above →
    Wanted target wanted → ¬Recorded rows above.resolved.id → ¬Recorded rows wanted.resolved.id →
    migrationLess wanted.resolved above.resolved

/-- The definitions of the rows to delete name their service. -/
def DownNamed (migrations : List DatabaseMigration) (target : ℤ) (rows : AppliedMigrations) :
    Prop :=
  ∀ id migration, Recorded rows id → id.1 ∈ targetServices migrations → target < id.2 →
    definitionOf migrations (migrationKey id) = some migration → migration.service ≠ ""

theorem wanted_iff {target : ℤ} (htarget : 0 ≤ target) (migration : DatabaseMigration) :
    Wanted target migration ↔ exceeds target migration = false := by
  unfold Wanted exceeds
  rw [Bool.and_eq_false_iff, decide_eq_false_iff_not, decide_eq_false_iff_not]
  omega

theorem exceeds_congr {target : ℤ} {migration other : DatabaseMigration}
    (h : migration.version = other.version) : exceeds target migration = exceeds target other := by
  unfold exceeds
  rw [h]

@[simp] theorem exceeds_resolved (target : ℤ) (migration : DatabaseMigration) :
    exceeds target migration.resolved = exceeds target migration :=
  exceeds_congr (resolved_version migration)

/-! ## The loop upwards -/

/-- What the loop has done on a list: it has visited its first part and recorded all of it, and
stands before a pending migration above the target, if anything is left. -/
structure UpVisit (target : ℤ) (list : List DatabaseMigration) (start stop : UpProgress)
    (visited rest : List DatabaseMigration) (new : List DatabaseMigration) : Prop where
  split : list = visited ++ rest
  recorded : ∀ id, Recorded stop.rows id ↔
    Recorded start.rows id ∨ id ∈ visited.map DatabaseMigration.id
  pending : ∀ migration ∈ visited, Recorded start.rows migration.id ∨
    exceeds target migration = false
  stopped : rest = [] ∨ ∃ migration later, rest = migration :: later ∧
    exceeds target migration ∧ ¬Recorded stop.rows migration.id
  executed : stop.executed = start.executed ++ new
  sublist : new.Sublist visited
  once : (new.map DatabaseMigration.id).Nodup
  new_iff : ∀ id, id ∈ new.map DatabaseMigration.id ↔
    Recorded stop.rows id ∧ ¬Recorded start.rows id

section

variable {execute : String → Option String} {target : ℤ}
  {list visited rest new : List DatabaseMigration} {start stop : UpProgress}
  {migration : DatabaseMigration}

/-- The loop ends. -/
theorem UpVisit.ended (hstopped : rest = [] ∨ ∃ migration later, rest = migration :: later ∧
    exceeds target migration ∧ ¬Recorded start.rows migration.id) :
    UpVisit target rest start start [] rest [] where
  split := rfl
  recorded := by simp
  pending := by simp
  stopped := hstopped
  executed := by simp
  sublist := List.Sublist.refl _
  once := List.nodup_nil
  new_iff := by simp

/-- A step over a migration that is recorded. -/
theorem UpVisit.skip (h : UpVisit target list start stop visited rest new)
    (hrecorded : Recorded start.rows migration.id) :
    UpVisit target (migration :: list) start stop (migration :: visited) rest new where
  split := by rw [h.split, List.cons_append]
  recorded := by
    intro id
    have hknown : id = migration.id → Recorded start.rows id := fun h => h ▸ hrecorded
    rw [h.recorded, List.map_cons, List.mem_cons, ← or_assoc, or_iff_left_of_imp hknown]
  pending := by
    intro migration' hmem
    rcases List.mem_cons.mp hmem with rfl | hmem
    · exact .inl hrecorded
    · exact h.pending migration' hmem
  stopped := h.stopped
  executed := h.executed
  sublist := h.sublist.cons migration
  once := h.once
  new_iff := h.new_iff

/-- A step that applies a migration. -/
theorem UpVisit.apply {rows : AppliedMigrations}
    (h : UpVisit target list ⟨rows, start.executed ++ [migration]⟩ stop visited rest new)
    (hinsert : start.rows.insert migration.id migration.description = some rows)
    (hexceeds : exceeds target migration = false) :
    UpVisit target (migration :: list) start stop (migration :: visited) rest
      (migration :: new) := by
  have hfresh : ¬Recorded start.rows migration.id := by
    unfold Recorded
    rw [Table.get_eq_none_of_insert hinsert]
    simp
  have hrows : ∀ id, Recorded stop.rows id ↔
      (id = migration.id ∨ Recorded start.rows id) ∨ id ∈ visited.map DatabaseMigration.id := by
    intro id
    rw [h.recorded, recorded_insert hinsert]
  refine ⟨by rw [h.split, List.cons_append], ?_, ?_, h.stopped, ?_, h.sublist.cons_cons migration,
    ?_, ?_⟩
  · intro id
    rw [hrows, List.map_cons, List.mem_cons, or_assoc, or_left_comm]
  · intro migration' hmem
    rcases List.mem_cons.mp hmem with rfl | hmem
    · exact .inr hexceeds
    · rcases h.pending migration' hmem with hrecorded | hsmall
      · rcases (recorded_insert hinsert _).mp hrecorded with heq | hstart
        · -- a migration of the same id has the same version
          exact .inr ((exceeds_congr (Prod.mk.inj heq).2).trans hexceeds)
        · exact .inl hstart
      · exact .inr hsmall
  · rw [h.executed, List.append_assoc, List.singleton_append]
  · rw [List.map_cons, List.nodup_cons]
    refine ⟨?_, h.once⟩
    intro hmem
    exact ((h.new_iff _).mp hmem).2 ((recorded_insert hinsert _).mpr (.inl rfl))
  · intro id
    rw [List.map_cons, List.mem_cons, h.new_iff, recorded_insert hinsert, hrows]
    by_cases heq : id = migration.id
    · subst heq
      simp [hfresh]
    · simp only [heq, false_or]

/-- Induction over the list; the keys that count as applied are those of the rows. -/
theorem upLoop_visit (list : List DatabaseMigration) {applied : List String}
    (happlied : ∀ id, migrationKey id ∈ applied ↔ Recorded start.rows id)
    (h : upLoop execute target list applied start = .ok stop) :
    ∃ visited rest new, UpVisit target list start stop visited rest new := by
  induction list generalizing applied start with
  | nil =>
    cases h
    exact ⟨[], [], [], .ended (.inl rfl)⟩
  | cons migration list ih =>
    unfold upLoop at h
    dsimp only at h
    split at h
    · rename_i hmem
      obtain ⟨visited, rest, new, hvisit⟩ := ih happlied h
      exact ⟨migration :: visited, rest, new, hvisit.skip ((happlied _).mp hmem)⟩
    rename_i hpending
    rw [happlied] at hpending
    split at h
    · rename_i hexceeds
      cases h
      exact ⟨[], migration :: list, [], .ended (.inr ⟨migration, list, rfl, hexceeds, hpending⟩)⟩
    rename_i hexceeds
    split at h
    · cases h
    split at h
    · cases h
    rename_i rows hinsert
    have happlied' : ∀ id, migrationKey id ∈ migrationKey migration.id :: applied ↔
        Recorded rows id := by
      intro id
      rw [List.mem_cons, migrationKey_injective.eq_iff, happlied, recorded_insert hinsert]
    obtain ⟨visited, rest, new, hvisit⟩ := ih happlied' h
    exact ⟨migration :: visited, rest, migration :: new,
      hvisit.apply hinsert (Bool.eq_false_iff.mpr hexceeds)⟩

theorem migrateUp_visit {sorted : List DatabaseMigration} {rows : AppliedMigrations}
    {progress : UpProgress} (h : migrateUp execute target sorted rows = .ok progress) :
    ∃ visited rest, UpVisit target sorted ⟨rows, []⟩ progress visited rest progress.executed := by
  unfold migrateUp at h
  have happlied : ∀ id, migrationKey id ∈ appliedKeys rows ↔
      Recorded (UpProgress.mk rows []).rows id := fun id => mem_appliedKeys
  obtain ⟨visited, rest, new, hvisit⟩ := upLoop_visit sorted happlied h
  have hnew : progress.executed = new := hvisit.executed
  rw [hnew]
  exact ⟨visited, rest, hvisit⟩

/-! ## The contract of `MigrateUp` -/

variable {migrations sorted : List DatabaseMigration} {rows : AppliedMigrations}
  {progress : UpProgress}

/-- The given migrations are those that were visited and those that are left. -/
theorem UpVisit.given_iff (h : UpVisit target sorted start stop visited rest new)
    (hsorted : SortedMigrations (migrations.map .resolved) sorted) :
    migration ∈ migrations.map DatabaseMigration.resolved ↔
      migration ∈ visited ∨ migration ∈ rest := by
  rw [← hsorted.perm.mem_iff, h.split, List.mem_append]

variable (htarget : 0 ≤ target) (hsorted : SortedMigrations (migrations.map .resolved) sorted)
  (h : migrateUp execute target sorted rows = .ok progress)

include hsorted h

/-- What `MigrateUp` keeps in any case. -/
theorem migrateUp_executes :
    (∀ id, id ∈ progress.executed.map DatabaseMigration.id ↔
      Recorded progress.rows id ∧ ¬Recorded rows id) ∧
      (progress.executed.map DatabaseMigration.id).Nodup ∧
      (∀ migration ∈ progress.executed, migration ∈ migrations.map DatabaseMigration.resolved) ∧
      progress.executed.Pairwise fun a b => b.service = "core" → a.service = "core" := by
  obtain ⟨visited, rest, hvisit⟩ := migrateUp_visit h
  have hsublist : progress.executed.Sublist sorted := by
    rw [hvisit.split]
    exact hvisit.sublist.trans (List.sublist_append_left visited rest)
  refine ⟨hvisit.new_iff, hvisit.once, fun migration hmem => ?_, ?_⟩
  · exact (hvisit.given_iff hsorted).mpr (.inl (hvisit.sublist.subset hmem))
  · exact (hsorted.ordered.sublist hsublist).imp fun hless hcore => service_eq_core hless hcore

include htarget

theorem recorded_of_upOrdered (hordered : UpOrdered migrations target rows) (id : MigrationId) :
    Recorded progress.rows id ↔ Recorded rows id ∨
      ∃ migration ∈ migrations, migration.resolved.id = id ∧ Wanted target migration := by
  obtain ⟨visited, rest, hvisit⟩ := migrateUp_visit h
  have hpairs := hsorted.ordered
  rw [hvisit.split, List.pairwise_append] at hpairs
  rw [hvisit.recorded]
  constructor
  · rintro (hrow | hvisited)
    · exact .inl hrow
    · obtain ⟨migration, hmem, rfl⟩ := List.mem_map.mp hvisited
      rcases hvisit.pending migration hmem with hrow | hsmall
      · exact .inl hrow
      · have hgiven := (hvisit.given_iff hsorted).mpr (.inl hmem)
        obtain ⟨given, hmem', rfl⟩ := List.mem_map.mp hgiven
        rw [exceeds_resolved] at hsmall
        exact .inr ⟨given, hmem', rfl, (wanted_iff htarget given).mpr hsmall⟩
  · rintro (hrow | ⟨wanted, hmem, rfl, hwanted⟩)
    · exact .inl hrow
    · by_cases hrow : Recorded rows wanted.resolved.id
      · exact .inl hrow
      refine .inr (List.mem_map_of_mem ?_)
      -- what is wanted and pending does not stand behind the migration where the loop stopped
      rcases (hvisit.given_iff hsorted).mp (List.mem_map_of_mem hmem) with hvisited | hrest
      · exact hvisited
      rcases hvisit.stopped with hnil | ⟨above, later, hsplit, hexceeds, hpending⟩
      · rw [hnil] at hrest
        cases hrest
      rw [hvisit.recorded, not_or] at hpending
      have habove := (hvisit.given_iff hsorted).mpr (.inr (hsplit ▸ List.mem_cons_self))
      obtain ⟨given, hmem', rfl⟩ := List.mem_map.mp habove
      rw [exceeds_resolved] at hexceeds
      have hless := hordered given hmem' wanted hmem hexceeds hwanted hpending.1 hrow
      rw [hsplit] at hrest
      rcases List.mem_cons.mp hrest with heq | hlater
      · have hsmall := (wanted_iff htarget wanted).mp hwanted
        rw [← exceeds_resolved, heq, exceeds_resolved, hexceeds] at hsmall
        cases hsmall
      · have hpairs' := hpairs.2.1
        rw [hsplit, List.pairwise_cons] at hpairs'
        rw [hpairs'.1 _ hlater] at hless
        cases hless

theorem UpContract.upOrdered (hcontract : UpContract migrations target rows progress) :
    UpOrdered migrations target rows := by
  intro above hmem wanted hmem' hexceeds hwanted hpending hpending'
  obtain ⟨visited, rest, hvisit⟩ := migrateUp_visit h
  have hpairs := hsorted.ordered
  rw [hvisit.split, List.pairwise_append] at hpairs
  -- the wanted one has been visited
  have hvisited : wanted.resolved.id ∈ visited.map DatabaseMigration.id := by
    have hrow := (hcontract.recorded wanted.resolved.id).mpr (.inr ⟨wanted, hmem', rfl, hwanted⟩)
    exact ((hvisit.recorded _).mp hrow).resolve_left hpending'
  obtain ⟨first, hfirst, hid⟩ := List.mem_map.mp hvisited
  -- the one above the target has not
  have hrest : above.resolved ∈ rest := by
    refine ((hvisit.given_iff hsorted).mp (List.mem_map_of_mem hmem)).resolve_left ?_
    intro hin
    rcases hvisit.pending _ hin with hrow | hsmall
    · exact hpending hrow
    · rw [exceeds_resolved, hexceeds] at hsmall
      cases hsmall
  have hne : above.resolved.id ≠ first.id := by
    rw [hid]
    intro heq
    have hsmall := (wanted_iff htarget wanted).mp hwanted
    rw [← exceeds_resolved, ← exceeds_congr (Prod.mk.inj heq).2, exceeds_resolved,
      hexceeds] at hsmall
    cases hsmall
  rw [migrationLess_congr hid.symm rfl]
  exact migrationLess_or hne (hpairs.2.2 first hfirst above.resolved hrest)

theorem upContract_iff :
    UpContract migrations target rows progress ↔ UpOrdered migrations target rows := by
  constructor
  · exact UpContract.upOrdered htarget hsorted h
  · intro hordered
    obtain ⟨hexecuted, honce, hgiven, hcore⟩ := migrateUp_executes hsorted h
    exact ⟨recorded_of_upOrdered htarget hsorted h hordered, hexecuted, honce, hgiven, hcore⟩

end

/-! ## The loop downwards -/

section

variable {execute : String → Option String} {target : ℤ} {migrations : List DatabaseMigration}

/-- A listed row that the loop takes back by a statement of its own, with the definition that it
finds. -/
def TakenBack (migrations : List DatabaseMigration) (target : ℤ) (entry : MigrationId)
    (migration : DatabaseMigration) : Prop :=
  entry.1 ∈ targetServices migrations ∧ ¬(0 < target ∧ entry.2 ≤ target) ∧
    definitionOf migrations (migrationKey entry) = some migration ∧
    (migration.service ≠ "core" ∨ migration.version ≠ 1)

variable {rows rows' : AppliedMigrations}

/-- What a run that succeeds has found for its first row, and made of it. -/
theorem downLoop_cons {entry : MigrationId} {entries : List MigrationId}
    (h : downLoop execute target migrations (entry :: entries) rows = .ok rows') :
    (entry.1 ∈ targetServices migrations →
      ∃ migration, definitionOf migrations (migrationKey entry) = some migration) ∧
    ∃ rows₁, downLoop execute target migrations entries rows₁ = .ok rows' ∧
      ∀ id, Recorded rows₁ id ↔ Recorded rows id ∧
        ¬∃ migration, TakenBack migrations target entry migration ∧ migration.id = id := by
  unfold downLoop at h
  dsimp only at h
  split at h
  · cases h
  split at h
  · rename_i hservice
    refine ⟨fun hmem => absurd hmem hservice, rows, h, fun id => ?_⟩
    simp [TakenBack, hservice]
  rename_i hservice
  split at h
  · cases h
  rename_i migration hdefinition
  refine ⟨fun _ => ⟨migration, hdefinition⟩, ?_⟩
  split at h
  · rename_i hbelow
    refine ⟨rows, h, fun id => ?_⟩
    simp [TakenBack, hbelow]
  rename_i habove
  split at h
  · cases h
  split at h
  · cases h
  refine ⟨_, h, fun id => ?_⟩
  -- the first core migration is rolled back without deleting its row
  have hentry : (∃ migration', TakenBack migrations target entry migration' ∧
      migration'.id = id) ↔
      (migration.service ≠ "core" ∨ migration.version ≠ 1) ∧ migration.id = id := by
    constructor
    · rintro ⟨migration', ⟨-, -, hdefinition', hcore⟩, hid⟩
      rw [hdefinition] at hdefinition'
      cases hdefinition'
      exact ⟨hcore, hid⟩
    · rintro ⟨hcore, hid⟩
      exact ⟨migration, ⟨not_not.mp hservice, habove, hdefinition, hcore⟩, hid⟩
  rw [hentry]
  by_cases hcore : migration.service ≠ "core" ∨ migration.version ≠ 1
  · rw [if_pos hcore, recorded_delete, and_comm, ne_comm]
    simp only [hcore, true_and, ne_eq]
  · rw [if_neg hcore]
    simp only [hcore, false_and, not_false_eq_true, and_true]

theorem downLoop_recorded (entries : List MigrationId)
    (h : downLoop execute target migrations entries rows = .ok rows') (id : MigrationId) :
    Recorded rows' id ↔ Recorded rows id ∧
      ¬∃ entry ∈ entries, ∃ migration, TakenBack migrations target entry migration ∧
        migration.id = id := by
  induction entries generalizing rows with
  | nil =>
    cases h
    simp
  | cons entry entries ih =>
    obtain ⟨-, rows₁, hloop, hrows⟩ := downLoop_cons h
    rw [ih hloop, hrows, List.exists_mem_cons_iff, not_or, and_assoc]

/-- A run that succeeds has found a definition for each row of the given services. -/
theorem downLoop_defines (entries : List MigrationId)
    (h : downLoop execute target migrations entries rows = .ok rows') {id : MigrationId}
    (hmem : id ∈ entries) (hservice : id.1 ∈ targetServices migrations) :
    ∃ migration, definitionOf migrations (migrationKey id) = some migration := by
  induction entries generalizing rows with
  | nil => cases hmem
  | cons entry entries ih =>
    obtain ⟨hdefines, rows₁, hloop, -⟩ := downLoop_cons h
    rcases List.mem_cons.mp hmem with rfl | hmem
    · exact hdefines hservice
    · exact ih hloop hmem

/-- The definition of a row is that of its id if it names the service. -/
theorem id_eq_of_definitionOf {id : MigrationId} {migration : DatabaseMigration}
    (h : definitionOf migrations (migrationKey id) = some migration)
    (hname : migration.service ≠ "") : migration.id = id := by
  have hid := (definitionOf_spec h).2
  rwa [DatabaseMigration.resolved, if_neg hname] at hid

variable {listed : List MigrationId}

theorem downContract_iff (htarget : 1 ≤ target) (hlisted : listed.Perm (rows.rows.map Prod.fst))
    (h : migrateDown execute target migrations listed rows = .ok rows') :
    DownContract migrations target rows rows' ↔ DownNamed migrations target rows := by
  have hrecorded := downLoop_recorded listed h
  have hmem : ∀ id, id ∈ listed ↔ Recorded rows id := by
    intro id
    rw [recorded_iff]
    exact hlisted.mem_iff
  constructor
  · intro hcontract id migration hrow hservice habove hdefinition hblank
    have hgone : ¬Recorded rows' id := by
      rw [hcontract]
      exact fun hrow' => hrow'.2 ⟨hservice, habove⟩
    rw [hrecorded, not_and, not_not] at hgone
    obtain ⟨entry, -, migration', htaken, hid⟩ := hgone hrow
    -- the definition that was used names the service, so it is another one than that of the row
    have hnamed : migration'.service ≠ "" := by
      intro hblank'
      have hservice' : migration'.service = id.1 := (Prod.mk.inj hid).1
      have hresolved := (definitionOf_spec hdefinition).2
      unfold DatabaseMigration.resolved at hresolved
      rw [if_pos hblank] at hresolved
      have hcore : "core" = id.1 := (Prod.mk.inj hresolved).1
      rw [hservice', ← hcore] at hblank'
      exact absurd hblank' (by decide)
    obtain rfl := hid.symm.trans (id_eq_of_definitionOf htaken.2.2.1 hnamed)
    cases hdefinition.symm.trans htaken.2.2.1
    exact hnamed hblank
  · intro hnamed id
    rw [hrecorded]
    refine and_congr_right fun hrow => not_congr ?_
    constructor
    · rintro ⟨entry, hentry, migration, ⟨hservice, habove, hdefinition, -⟩, hid⟩
      have habove' : target < entry.2 := by omega
      have hname := hnamed entry migration ((hmem entry).mp hentry) hservice habove' hdefinition
      obtain rfl := hid.symm.trans (id_eq_of_definitionOf hdefinition hname)
      exact ⟨hservice, habove'⟩
    · rintro ⟨hservice, habove⟩
      -- the run has succeeded, so there is a definition
      obtain ⟨migration, hdefinition⟩ := downLoop_defines listed h ((hmem id).mpr hrow) hservice
      have hname := hnamed id migration hrow hservice habove hdefinition
      have hid := id_eq_of_definitionOf hdefinition hname
      have hversion : migration.version = id.2 := (Prod.mk.inj hid).2
      exact ⟨id, (hmem id).mpr hrow, migration, ⟨hservice, by omega, hdefinition,
        .inr (by omega)⟩, hid⟩

end

/-! ## Both directions -/

/-- `MigrateUp` keeps its contract exactly if the pending migrations up to the target come before
those above it, and `MigrateDown` exactly if the definitions of the rows to delete name their
service. -/
theorem migrations_iff (execute : String → Option String) (migrations : List DatabaseMigration)
    (rows : AppliedMigrations) (target : ℤ) :
    (∀ sorted progress, 0 ≤ target → SortedMigrations (migrations.map .resolved) sorted →
      migrateUp execute target sorted rows = .ok progress →
      (UpContract migrations target rows progress ↔ UpOrdered migrations target rows)) ∧
      ∀ listed rows', 1 ≤ target → listed.Perm (rows.rows.map Prod.fst) →
        migrateDown execute target migrations listed rows = .ok rows' →
        (DownContract migrations target rows rows' ↔ DownNamed migrations target rows) :=
  ⟨fun _ _ htarget hsorted h => upContract_iff htarget hsorted h,
    fun _ _ htarget hlisted h => downContract_iff htarget hlisted h⟩

/-! ## Runs -/

/-- A migration whose scripts have a name. -/
def scripted (service : String) (version : ℤ) : DatabaseMigration :=
  ⟨service, version, "tables", "CREATE", "DROP"⟩

/-- A table with one row. -/
def recordedOnce (id : MigrationId) : AppliedMigrations :=
  ⟨[(id, "tables")], List.nodup_singleton _⟩

/-- Of three migrations, the last one above the target, two are applied, and a row above the target
is rolled back. -/
theorem migrations_core_auth :
    (∃ progress, migrateUp (fun _ => none) 1
        [scripted "core" 1, scripted "auth" 1, scripted "auth" 2] .empty = .ok progress ∧
      UpContract [scripted "auth" 1, scripted "core" 1, scripted "auth" 2] 1 .empty progress) ∧
      ∃ rows, migrateDown (fun _ => none) 1 [scripted "auth" 2] [("auth", 2)]
          (recordedOnce ("auth", 2)) = .ok rows ∧
        DownContract [scripted "auth" 2] 1 (recordedOnce ("auth", 2)) rows := by
  constructor
  · refine ⟨_, rfl, ((migrations_iff (fun _ => none) _ _ _).1
      [scripted "core" 1, scripted "auth" 1, scripted "auth" 2] _ (by decide) ⟨?_, ?_⟩ rfl).mpr ?_⟩
    · exact List.Perm.swap _ _ _
    · decide
    · have hordered : ∀ above ∈ [scripted "auth" 1, scripted "core" 1, scripted "auth" 2],
          ∀ wanted ∈ [scripted "auth" 1, scripted "core" 1, scripted "auth" 2],
          exceeds 1 above → wanted.version ≤ 1 →
            migrationLess wanted.resolved above.resolved := by decide
      intro above habove wanted hwanted hexceeds hversion _ _
      exact hordered above habove wanted hwanted hexceeds (hversion.resolve_left (by decide))
  · refine ⟨_, rfl, ((migrations_iff (fun _ => none) _ _ _).2 [("auth", 2)] _ (by decide)
      (List.Perm.refl _) rfl).mpr ?_⟩
    intro id migration _ _ _ hdefinition
    obtain ⟨hmem, -⟩ := definitionOf_spec hdefinition
    rw [List.mem_singleton] at hmem
    rw [hmem]
    decide

/-- The second core migration is above the target, so the first of another service is not applied.
The definition of a core migration that leaves out the service is rolled back and stays
recorded. -/
theorem migrations_not_kept :
    (∃ progress, SortedMigrations
        ([scripted "core" 1, scripted "core" 2, scripted "auth" 1].map .resolved)
        [scripted "core" 1, scripted "core" 2, scripted "auth" 1] ∧
      migrateUp (fun _ => none) 1 [scripted "core" 1, scripted "core" 2, scripted "auth" 1]
        .empty = .ok progress ∧
      ¬UpContract [scripted "core" 1, scripted "core" 2, scripted "auth" 1] 1 .empty progress) ∧
      ∃ rows, migrateDown (fun _ => none) 1 [scripted "" 2] [("core", 2)]
          (recordedOnce ("core", 2)) = .ok rows ∧
        ¬DownContract [scripted "" 2] 1 (recordedOnce ("core", 2)) rows := by
  constructor
  · have hsorted : SortedMigrations
        ([scripted "core" 1, scripted "core" 2, scripted "auth" 1].map .resolved)
        [scripted "core" 1, scripted "core" 2, scripted "auth" 1] :=
      ⟨List.Perm.refl _, by decide⟩
    refine ⟨_, hsorted, rfl, ?_⟩
    intro hcontract
    have hordered := (@upContract_iff (fun _ => none) _ _ _ _ _ (by decide) hsorted rfl).mp
      hcontract
    have hless := hordered (scripted "core" 2) (by decide) (scripted "auth" 1) (by decide)
      (by decide) (.inr (by decide)) (by decide) (by decide)
    exact absurd hless (by decide)
  · refine ⟨_, rfl, ?_⟩
    intro hcontract
    have hnamed := (@downContract_iff (fun _ => none) _ _ _ _ _ (by decide) (.refl _) rfl).mp
      hcontract
    exact hnamed ("core", 2) (scripted "" 2) (by decide) (by decide) (by decide) (by decide) rfl

/-- A node: how scripts run, the target and the sorted migrations. -/
abbrev Node := (String → Option String) × ℤ × List DatabaseMigration

/-- A node migrates when it starts; an error rolls that back. -/
def startNode (done : UpProgress) (node : Node) : UpProgress :=
  match migrateUp node.1 node.2.1 node.2.2 done.rows with
  | .ok progress => ⟨progress.rows, done.executed ++ progress.executed⟩
  | .error _ => done

/-- What was executed is recorded, and was so once. -/
def AppliedOnce (done : UpProgress) : Prop :=
  (done.executed.map DatabaseMigration.id).Nodup ∧
    ∀ id ∈ done.executed.map DatabaseMigration.id, Recorded done.rows id

theorem AppliedOnce.start {done : UpProgress} (h : AppliedOnce done) (node : Node) :
    AppliedOnce (startNode done node) := by
  unfold startNode
  split
  · rename_i progress hup
    obtain ⟨visited, rest, hvisit⟩ := migrateUp_visit hup
    rw [AppliedOnce, List.map_append, List.forall_mem_append]
    refine ⟨h.1.append hvisit.once fun id hdone hnew => ?_, fun id hdone => ?_, fun id hnew => ?_⟩
    · exact ((hvisit.new_iff id).mp hnew).2 (h.2 id hdone)
    · exact (hvisit.recorded id).mpr (.inl (h.2 id hdone))
    · exact ((hvisit.new_iff id).mp hnew).1
  · exact h

/-- No migration is executed twice, whichever nodes start. -/
theorem executed_once (rows : AppliedMigrations) (nodes : List Node) :
    ((nodes.foldl startNode ⟨rows, []⟩).executed.map DatabaseMigration.id).Nodup :=
  (List.foldlRecOn (motive := AppliedOnce) nodes startNode (by simp [AppliedOnce])
    fun _ h node _ => h.start node).1

end Layr.Core
