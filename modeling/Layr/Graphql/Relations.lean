import Layr.Graphql.CompilerNames

/-!
# Where the catalog sends a relation

`compileNestedRelation` finds the table of a relation by lookups that overwrite each other. Here
the same is said over the entries of the catalog: an entry of the parent under the relation's
name decides, then a foreign key of the relation's own table, then the name alone.
-/

namespace Layr.Graphql

open Go

variable {schema parentTable relTable table : String} {target : String × String}

namespace Catalog

/-- A table of the catalog has the entry `relationInfo` under `name` among its foreign keys. -/
def Entry (catalog : Catalog) (schema table name : String) (relationInfo : RelationInfo) : Prop :=
  ∃ info, catalog.getTable schema table = some info ∧ info.foreignKeys.get name = some relationInfo

/-- The table of the catalog that a relation is named after, in the singular or the plural. -/
inductive NamedAfter (catalog : Catalog) (schema relTable : String) : String → Prop
  | same (h : (catalog.getTable schema relTable).isSome) :
      NamedAfter catalog schema relTable relTable
  | singular {table : String} (hnone : catalog.getTable schema relTable = none)
      (hname : relTable = table ++ "s") (h : (catalog.getTable schema table).isSome) :
      NamedAfter catalog schema relTable table
  | plural (hnone : catalog.getTable schema relTable = none)
      (hname : ∀ table, relTable ≠ table ++ "s")
      (h : (catalog.getTable schema (relTable ++ "s")).isSome) :
      NamedAfter catalog schema relTable (relTable ++ "s")

/-- The table that a relation of `parentTable` is read from. -/
inductive SendsTo (catalog : Catalog) (schema parentTable relTable : String) :
    String × String → Prop
  | parentKey {key : RelationInfo} (hkey : catalog.Entry schema parentTable relTable key) :
      SendsTo catalog schema parentTable relTable (key.foreignSchema, key.foreignTable)
  | ownKey {table : String} {key : RelationInfo}
      (hparent : ∀ key, ¬catalog.Entry schema parentTable relTable key)
      (hnamed : catalog.NamedAfter schema relTable table)
      (hkey : catalog.Entry schema table parentTable key) (harray : key.isArray = false) :
      SendsTo catalog schema parentTable relTable (schema, key.foreignTable)
  | named {table : String} (hparent : ∀ key, ¬catalog.Entry schema parentTable relTable key)
      (hnamed : catalog.NamedAfter schema relTable table)
      (hkey : ∀ key, catalog.Entry schema table parentTable key → key.isArray) :
      SendsTo catalog schema parentTable relTable (schema, table)
  | unknown (hparent : ∀ key, ¬catalog.Entry schema parentTable relTable key)
      (hnamed : ∀ table, ¬catalog.NamedAfter schema relTable table) :
      SendsTo catalog schema parentTable relTable (schema, relTable)

/-- Every foreign key names a schema and a table. -/
def Linked (catalog : Catalog) : Prop :=
  ∀ schema table name key, catalog.Entry schema table name key →
    key.foreignSchema ≠ "" ∧ key.foreignTable ≠ ""

variable {catalog : Catalog}

/-- The entry of a table under a name, as the compiler looks it up. -/
theorem entry_iff {name : String} {key : RelationInfo} :
    catalog.Entry schema table name key ↔
      ((catalog.getTable schema table).bind fun info => info.foreignKeys.get name) = some key :=
  Option.bind_eq_some_iff.symm

/-- A table has no entry under a name exactly when the lookup finds none. -/
theorem not_entry_iff {name : String} :
    (∀ key, ¬catalog.Entry schema table name key) ↔
      ((catalog.getTable schema table).bind fun info => info.foreignKeys.get name) = none := by
  simp only [entry_iff, Option.eq_none_iff_forall_ne_some]

end Catalog

namespace Compiler

variable {compiler : Compiler}

/-- The first lookup finds the table that the relation is named after. -/
theorem relationTable_of_namedAfter (h : compiler.catalog.NamedAfter schema relTable table) :
    compiler.relationTable schema relTable = (compiler.catalog.getTable schema table, table) := by
  unfold relationTable
  cases h with
  | same h =>
    obtain ⟨info, hinfo⟩ := Option.isSome_iff_exists.mp h
    simp [hinfo]
  | singular hnone hname h =>
    obtain ⟨info, hinfo⟩ := Option.isSome_iff_exists.mp h
    rw [hname] at hnone ⊢
    simp [hnone, hinfo]
  | plural hnone hname h =>
    obtain ⟨info, hinfo⟩ := Option.isSome_iff_exists.mp h
    have hsuffix : Strings.hasSuffix relTable "s" = false := by
      by_contra hs
      exact hname _ (Strings.eq_append_of_hasSuffix (by simpa using hs))
    simp [hnone, hinfo, hsuffix]

/-- Where no table has the name, the first lookup leaves it as it is. -/
theorem relationTable_of_not_namedAfter
    (h : ∀ table, ¬compiler.catalog.NamedAfter schema relTable table) :
    compiler.relationTable schema relTable = (none, relTable) := by
  have hnone : compiler.catalog.getTable schema relTable = none := by
    by_contra hsome
    exact h _ (.same (Option.isSome_iff_ne_none.mpr hsome))
  unfold relationTable
  rw [hnone]
  dsimp only
  split
  · rename_i info hinfo
    split at hinfo
    · rename_i hsuffix
      refine absurd (.singular hnone (Strings.eq_append_of_hasSuffix hsuffix) ?_) (h _)
      simp [hinfo]
    · rename_i hsuffix
      refine absurd (.plural hnone ?_ (by simp [hinfo])) (h _)
      rintro table rfl
      simp at hsuffix
  · rfl

/-- The lookups of a relation end at the table that the catalog sends it to. -/
theorem resolveRelation_of_sendsTo (hlinked : compiler.catalog.Linked)
    (h : compiler.catalog.SendsTo schema parentTable relTable target) :
    ((compiler.resolveRelation schema parentTable relTable).actualRelSchema,
      (compiler.resolveRelation schema parentTable relTable).actualRelTable) = target := by
  unfold resolveRelation
  cases h with
  | parentKey hkey =>
    obtain ⟨hschema, htable⟩ := hlinked _ _ _ _ hkey
    simp [applyParentForeignKey, Catalog.entry_iff.mp hkey, hschema, htable]
  | ownKey hparent hnamed hkey harray =>
    have htable := (hlinked _ _ _ _ hkey).2
    simp [applyParentForeignKey, Catalog.not_entry_iff.mp hparent,
      relationTable_of_namedAfter hnamed, applyRelationForeignKey, Catalog.entry_iff.mp hkey,
      htable, harray]
  | @named table hparent hnamed hkey =>
    rw [relationTable_of_namedAfter hnamed]
    simp only [applyParentForeignKey, Catalog.not_entry_iff.mp hparent, applyRelationForeignKey]
    split
    · rfl
    · rename_i key hget
      simp [hkey key (Catalog.entry_iff.mpr hget)]
  | unknown hparent hnamed =>
    simp [applyParentForeignKey, Catalog.not_entry_iff.mp hparent,
      relationTable_of_not_namedAfter hnamed, applyRelationForeignKey]

/-- The catalog sends every relation somewhere. -/
theorem exists_sendsTo (catalog : Catalog) (schema parentTable relTable : String) :
    ∃ target, catalog.SendsTo schema parentTable relTable target := by
  by_cases hparent : ∃ key, catalog.Entry schema parentTable relTable key
  · obtain ⟨key, hkey⟩ := hparent
    exact ⟨_, .parentKey hkey⟩
  rw [not_exists] at hparent
  by_cases hnamed : ∃ table, catalog.NamedAfter schema relTable table
  · obtain ⟨table, hnamed⟩ := hnamed
    by_cases hkey : ∃ key, catalog.Entry schema table parentTable key ∧ key.isArray = false
    · obtain ⟨key, hkey, harray⟩ := hkey
      exact ⟨_, .ownKey hparent hnamed hkey harray⟩
    · refine ⟨_, .named hparent hnamed fun key hentry => ?_⟩
      by_contra harray
      exact hkey ⟨key, hentry, by simpa using harray⟩
  · exact ⟨_, .unknown hparent (not_exists.mp hnamed)⟩

/-- The lookups of `compileNestedRelation` compute where the catalog sends a relation. -/
theorem sendsTo_iff (hlinked : compiler.catalog.Linked) :
    compiler.catalog.SendsTo schema parentTable relTable target ↔
      target = ((compiler.resolveRelation schema parentTable relTable).actualRelSchema,
        (compiler.resolveRelation schema parentTable relTable).actualRelTable) := by
  constructor
  · intro h
    exact (resolveRelation_of_sendsTo hlinked h).symm
  · rintro rfl
    obtain ⟨target, h⟩ := exists_sendsTo compiler.catalog schema parentTable relTable
    rw [resolveRelation_of_sendsTo hlinked h]
    exact h

end Compiler

/-! ## Introspected catalogs -/

/-- An identifier that is not empty. -/
def isPlainName (name : String) : Bool := name ≠ "" && isIdentifierText name

/-- A database whose schemas, tables and columns have plain names. A table without a primary key
reports the empty text. -/
def Database.isNamed (database : Database) : Bool :=
  database.all fun entry => isPlainName entry.1 && entry.2.all fun table =>
    isPlainName table.name && isIdentifierText table.primaryKey &&
      table.columns.all (fun column => isIdentifierText column.1) &&
      table.foreignKeys.all fun row =>
        isPlainName row.foreignSchema && isPlainName row.foreignTable &&
          isIdentifierText row.columnName && isIdentifierText row.targetColumn

/-- A foreign key with plain names. -/
structure RelationInfo.Named (key : RelationInfo) : Prop extends key.Clean where
  hasSchema : key.foreignSchema ≠ ""
  hasTable : key.foreignTable ≠ ""

/-- Foreign keys with plain names. -/
def KeysNamed (keys : GoMap RelationInfo) : Prop :=
  ∀ name key, GoMap.get name keys = some key → key.Named

/-- A table with plain names under its own key. -/
structure TableInfo.Named (info : TableInfo) (key : String) : Prop where
  isKey : key = tableKey info.schema info.name
  schema : isPlainName info.schema
  name : isPlainName info.name
  primaryKey : isIdentifierText info.primaryKey
  columns : ∀ column info', GoMap.get column info.columns = some info' →
    isIdentifierText column
  foreignKeys : KeysNamed info.foreignKeys

/-- A catalog with plain names. -/
def Catalog.Named (catalog : Catalog) : Prop :=
  ∀ key info, GoMap.get key catalog = some info → info.Named key

/-- What holds of every entry of a map and of a new one holds after the assignment. -/
theorem forall_get_set {V : Type} {P : String → V → Prop} {m : GoMap V} {key : String} {value : V}
    (h : ∀ k v, GoMap.get k m = some v → P k v) (hvalue : P key value) :
    ∀ k v, GoMap.get k (GoMap.set key value m) = some v → P k v := by
  intro k v hget
  rw [GoMap.get_set] at hget
  split at hget
  · rename_i hkey
    cases hget
    exact hkey ▸ hvalue
  · exact h k v hget

theorem KeysNamed.set {keys : GoMap RelationInfo} {key : RelationInfo} (h : KeysNamed keys)
    (hkey : key.Named) (name : String) : KeysNamed (keys.set name key) :=
  forall_get_set h hkey

theorem Catalog.Named.set {catalog : Catalog} {info : TableInfo} {key : String}
    (h : catalog.Named) (hinfo : info.Named key) : Catalog.Named (GoMap.set key info catalog) :=
  forall_get_set h hinfo

/-- The first pass enters plain names. -/
theorem named_introspectTable {databaseTable : DatabaseTable} (hschema : isPlainName schema)
    (hname : isPlainName databaseTable.name) (hprimary : isIdentifierText databaseTable.primaryKey)
    (hcolumns : ∀ column ∈ databaseTable.columns, isIdentifierText column.1)
    (hkeys : ∀ row ∈ databaseTable.foreignKeys, isPlainName row.foreignSchema ∧
      isPlainName row.foreignTable ∧ isIdentifierText row.columnName ∧
        isIdentifierText row.targetColumn) :
    (introspectTable schema databaseTable).Named (tableKey schema databaseTable.name) := by
  refine ⟨rfl, hschema, hname, Compiler.isIdentifierText_ite hprimary (by decide), ?_, ?_⟩
  · refine List.foldlRecOn (motive := fun columns : GoMap ColumnInfo => ∀ column info',
      GoMap.get column columns = some info' → isIdentifierText column) _ _ (by simp) ?_
    intro columns ih column hcolumn
    exact forall_get_set ih (hcolumns column hcolumn)
  · refine List.foldlRecOn (motive := KeysNamed) _ _ (by simp [KeysNamed]) ?_
    intro keys ih row hrow
    obtain ⟨hforeignSchema, hforeignTable, hcolumn, htarget⟩ := hkeys row hrow
    rw [isPlainName, Bool.and_eq_true, decide_eq_true_iff] at hforeignSchema hforeignTable
    have hentry : RelationInfo.Named ⟨row.foreignTable, row.foreignSchema, row.foreignTable,
        row.columnName, row.targetColumn, false⟩ :=
      ⟨⟨hforeignSchema.2, hforeignTable.2, hcolumn, htarget⟩, hforeignSchema.1, hforeignTable.1⟩
    have hset := KeysNamed.set ih hentry row.foreignTable
    unfold indexForeignKey
    dsimp only
    split
    · exact hset.set hentry _
    · exact hset

/-- The second pass enters the names of the child. -/
theorem named_linkReverse {childTable : TableInfo} {childKey : String} {tables : Catalog}
    {key : RelationInfo} (hchild : childTable.Named childKey) (hkey : key.Named)
    (h : tables.Named) : (linkReverse childTable tables key).Named := by
  unfold linkReverse
  dsimp only
  split
  · exact h
  · rename_i parentTableInfo hparent
    split
    · exact h
    · obtain ⟨hisKey, hschema, hname, hprimary, hcolumns, hkeys⟩ := h _ _ hparent
      have hchildSchema := hchild.schema
      have hchildName := hchild.name
      rw [isPlainName, Bool.and_eq_true, decide_eq_true_iff] at hchildSchema hchildName
      refine h.set ⟨hisKey, hschema, hname, hprimary, hcolumns, hkeys.set ?_ _⟩
      exact ⟨⟨hchildSchema.2, hchildName.2, hkey.targetColumn, hkey.localColumn⟩, hchildSchema.1,
        hchildName.1⟩

/-- The catalog of a database with plain names has plain names. -/
theorem named_introspect {database : Database} (schemas : List String) (h : database.isNamed) :
    (introspect database schemas).Named := by
  have hmem : ∀ schema tables, GoMap.get schema database = some tables →
      (schema, tables) ∈ database := fun schema tables hget =>
    (GoMap.entries_sublist _).subset (GoMap.mem_entries_iff.mpr hget)
  unfold introspect
  dsimp only
  refine List.foldlRecOn (motive := Catalog.Named) _ _ ?_ ?_
  · refine List.foldlRecOn (motive := Catalog.Named) _ _ (by simp [Catalog.Named]) ?_
    intro tables ih schema _
    refine List.foldlRecOn (motive := Catalog.Named) _ _ ih ?_
    intro tables ih table htable
    obtain ⟨found, hget, hfound⟩ : ∃ found, GoMap.get schema database = some found ∧
        table ∈ found := by
      cases hget : GoMap.get schema database with
      | none => simp [hget] at htable
      | some found => exact ⟨found, rfl, by simpa [hget] using htable⟩
    have hentry := List.all_eq_true.mp h _ (hmem _ _ hget)
    simp only [Bool.and_eq_true, List.all_eq_true] at hentry
    obtain ⟨hschema, htables⟩ := hentry
    obtain ⟨⟨⟨hname, hprimary⟩, hcolumns⟩, hkeys⟩ := htables table hfound
    refine Catalog.Named.set ih
      (named_introspectTable hschema hname hprimary hcolumns fun row hrow => ?_)
    obtain ⟨⟨⟨hforeignSchema, hforeignTable⟩, hcolumn⟩, htarget⟩ := hkeys row hrow
    exact ⟨hforeignSchema, hforeignTable, hcolumn, htarget⟩
  · intro tables ih childKey _
    unfold linkReverses
    split
    · exact ih
    · rename_i childTable hchild
      have hchild := ih _ _ hchild
      refine List.foldlRecOn (motive := Catalog.Named) _ _ ih ?_
      intro tables ih key hkey
      obtain ⟨entry, hentry, rfl⟩ := List.mem_map.mp hkey
      exact named_linkReverse hchild (hchild.foreignKeys _ _ (GoMap.mem_entries_iff.mp hentry)) ih

/-- An introspected catalog of plain names is clean, and its foreign keys name their tables. -/
theorem clean_introspect {database : Database} (schemas : List String) (h : database.isNamed) :
    (introspect database schemas).Clean ∧ (introspect database schemas).Linked := by
  have hnamed := named_introspect schemas h
  constructor
  · intro key info hget
    obtain ⟨hkey, hschema, hname, hprimary, hcolumns, hkeys⟩ := hnamed key info hget
    rw [isPlainName, Bool.and_eq_true] at hschema hname
    refine ⟨⟨hprimary, fun column hmem => ?_, fun name key hget => (hkeys name key hget).toClean⟩,
      _, _, hkey, hschema.2, hname.2⟩
    obtain ⟨columnInfo, hcolumn⟩ := Option.isSome_iff_exists.mp (GoMap.mem_keys_iff.mp hmem)
    exact hcolumns column columnInfo hcolumn
  · rintro schema table name key ⟨info, hget, hkey⟩
    have hkey := (hnamed _ _ hget).foreignKeys _ _ hkey
    exact ⟨hkey.hasSchema, hkey.hasTable⟩

end Layr.Graphql
