import Layr.Go.Any

/-!
# The schema catalog (`data/graphql/schema.go`)

`Introspect` reads tables, columns, keys and foreign keys from `information_schema` and keeps
them in one map under `schema.table`. A table's foreign keys are indexed twice, by the foreign
table and by the column without `_id`; a second pass adds the reverse relations. The rows
Postgres returns are the input here; the copy of the map in the KV store is left out.
-/

namespace Layr.Graphql

open Go

/-- `ColumnInfo`. -/
structure ColumnInfo where
  name : String
  dataType : String
  isNullable : Bool
  isPrimaryKey : Bool
deriving DecidableEq, Repr

/-- `RelationInfo`. -/
structure RelationInfo where
  relationName : String
  foreignSchema : String
  foreignTable : String
  localColumn : String
  targetColumn : String
  isArray : Bool
deriving DecidableEq, Repr

/-- `TableInfo`. -/
structure TableInfo where
  schema : String
  name : String
  primaryKey : String
  columns : GoMap ColumnInfo
  foreignKeys : GoMap RelationInfo
deriving DecidableEq, Repr

/-- `SchemaIntrospector.tables`. -/
abbrev Catalog := GoMap TableInfo

/-- The key of a table in the catalog. -/
def tableKey (schema table : String) : String := schema ++ "." ++ table

/-- `GetTable`. -/
def Catalog.getTable (catalog : Catalog) (schema table : String) : Option TableInfo :=
  let schema := if schema = "" then "public" else schema
  catalog.get (tableKey schema table)

/-- The lookup shared by every reader of a root field name: `schema_table` is taken apart at the
first underscore that leaves a table of the catalog, otherwise the name is a table of the
default schema. -/
def Catalog.qualify (catalog : Catalog) (defaultSchema name : String) : String × String :=
  let cuts := Strings.cutsAt '_' [] name.toList
  match cuts.find? fun cut => (catalog.getTable cut.1 cut.2).isSome with
  | some cut => cut
  | none => (defaultSchema, name)

/-! ## Introspection -/

/-- A row of the foreign key query. -/
structure ForeignKeyRow where
  columnName : String
  foreignSchema : String
  foreignTable : String
  targetColumn : String

/-- What `information_schema` reports about one base table. An empty `primaryKey` stands for a
primary key query without a row. -/
structure DatabaseTable where
  name : String
  columns : List (String × String × Bool)
  primaryKey : String
  foreignKeys : List ForeignKeyRow

/-- The base tables of each schema. -/
abbrev Database := List (String × List DatabaseTable)

/-- Both index entries of one foreign key. -/
def indexForeignKey (foreignKeys : GoMap RelationInfo) (row : ForeignKeyRow) :
    GoMap RelationInfo :=
  let relationInfo : RelationInfo :=
    { relationName := row.foreignTable, foreignSchema := row.foreignSchema,
      foreignTable := row.foreignTable, localColumn := row.columnName,
      targetColumn := row.targetColumn, isArray := false }
  let foreignKeys := foreignKeys.set row.foreignTable relationInfo
  let trimmedColumnName := Strings.trimSuffix row.columnName "_id"
  if trimmedColumnName ≠ "" ∧ trimmedColumnName ≠ row.foreignTable then
    foreignKeys.set trimmedColumnName relationInfo
  else foreignKeys

/-- The first pass over one table. -/
def introspectTable (schema : String) (table : DatabaseTable) : TableInfo :=
  let columns : GoMap ColumnInfo := table.columns.foldl (fun columns column =>
    columns.set column.1
      { name := column.1, dataType := column.2.1, isNullable := column.2.2,
        isPrimaryKey := column.1 = table.primaryKey }) []
  { schema, name := table.name,
    primaryKey := if table.primaryKey ≠ "" then table.primaryKey else "id",
    columns,
    foreignKeys := table.foreignKeys.foldl indexForeignKey [] }

/-- The body of the second pass: the reverse of one foreign key of `childTable`, entered in the
table it points to unless that table already has a relation of this name. -/
def linkReverse (childTable : TableInfo) (tables : Catalog) (foreignKey : RelationInfo) :
    Catalog :=
  let parentKey := tableKey foreignKey.foreignSchema foreignKey.foreignTable
  match tables.get parentKey with
  | none => tables
  | some parentTableInfo =>
    match parentTableInfo.foreignKeys.get childTable.name with
    | some _ => tables
    | none =>
      tables.set parentKey { parentTableInfo with
        foreignKeys := parentTableInfo.foreignKeys.set childTable.name
          { relationName := childTable.name, foreignSchema := childTable.schema,
            foreignTable := childTable.name, localColumn := foreignKey.targetColumn,
            targetColumn := foreignKey.localColumn, isArray := true } }

/-- The second pass over one child table. Entries added to the child's own map on the way are
not visited, which Go's `range` allows. -/
def linkReverses (tables : Catalog) (childKey : String) : Catalog :=
  match tables.get childKey with
  | none => tables
  | some childTable =>
    (childTable.foreignKeys.entries.map Prod.snd).foldl (linkReverse childTable) tables

/-- `Introspect`, with both passes visiting their maps in list order. -/
def introspect (database : Database) (schemas : List String) : Catalog :=
  let newTables : Catalog := schemas.foldl (fun tables schema =>
    ((GoMap.get schema database).getD []).foldl (fun tables table =>
      tables.set (tableKey schema table.name) (introspectTable schema table)) tables) []
  (GoMap.keys newTables).foldl linkReverses newTables

end Layr.Graphql
