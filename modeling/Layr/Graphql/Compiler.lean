import Layr.Graphql.Ast
import Layr.Graphql.Catalog
import Layr.Graphql.Sql
import Layr.Identifier

/-!
# The GraphQL compiler (`data/graphql/compiler.go`)

`compile` turns a parsed operation into one SQL statement and its arguments. Each compiling
function takes the number of the next placeholder and returns it advanced, as the source threads
`argIndex`. The loops over Go maps run over `GoMap.entries`, whose order is the order of the
list that stands for the map.
-/

namespace Layr.Graphql

open Go

/-- The errors of the compiler, each with the operands of its message; `context` is the end of a
message that differs by mutation. `notAnObject` is the panic of the unchecked assertion on the
elements of `objects`. -/
inductive CompileError
  | emptySelectionSet
  | schemaNotExposed (schema : String)
  | tableExcluded (table : String)
  | invalidTableIdentifier (table context : String)
  | invalidFieldAlias (aliasName : String)
  | invalidSelectionAlias (aliasName : String)
  | invalidColumnIdentifier (column : String)
  | invalidRelationTable (table : String)
  | orderByNotAnObject
  | invalidOrderColumn (column : String)
  | whereNotAnObject
  | invalidWhereColumn (column : String)
  | limitNotAnInteger
  | offsetNotAnInteger
  | objectsRequired
  | objectsElementsNotMaps
  | invalidInsertColumn (column : String)
  | setRequired
  | invalidUpdateColumn (column : String)
  | whereRequired (mutation : String)
  | unsupportedMutation (name : String)
  | notAnObject
deriving DecidableEq, Repr

/-- `Compiler`, with the catalog of its introspector. -/
structure Compiler where
  catalog : Catalog
  defaultSchema : String
  allowedSchemas : List String
  excludedTables : List String

/-- `NewCompiler`. -/
def newCompiler (catalog : Catalog) (defaultSchema : String) : Compiler :=
  { catalog, defaultSchema := if defaultSchema = "" then "public" else defaultSchema,
    allowedSchemas := [], excludedTables := [] }

/-- A compiled part: its SQL, the arguments it binds and the next free placeholder. -/
structure Compiled (α : Type) where
  sql : α
  args : List Value
  next : ℕ

/-- `SQLQuery`, before printing. -/
structure SQLQuery where
  statement : Statement
  args : List Value

/-- The text of the query. -/
def SQLQuery.sql (query : SQLQuery) : String := query.statement.print

namespace Compiler

variable (compiler : Compiler)

/-- `isSchemaAllowed`: an empty list allows every schema. -/
def isSchemaAllowed (schema : String) : Bool :=
  compiler.allowedSchemas.isEmpty || compiler.allowedSchemas.contains schema

/-- `isTableExcluded`. -/
def isTableExcluded (schema table : String) : Bool :=
  compiler.excludedTables.any fun excluded =>
    excluded = table || excluded = schema ++ "." ++ table

/-! ## ORDER BY, WHERE, LIMIT -/

/-- The direction of an `order_by` entry: `strings.ToUpper(fmt.Sprintf("%v", dir))`, which spells
`DESC` for a string only, and anything but `DESC` falls back to `ASC`. -/
def direction : Value → String
  | .str text => if Strings.toUpper text = "DESC" then "DESC" else "ASC"
  | _ => "ASC"

/-- The loop of `compileOrderBy`. -/
def orderTerms (tableAlias : String) :
    List (String × Value) → Except CompileError (List OrderTerm)
  | [] => .ok []
  | (columnName, dir) :: entries =>
    if isValidIdentifier columnName then do
      let terms ← orderTerms tableAlias entries
      .ok (⟨tableAlias, columnName, direction dir⟩ :: terms)
    else .error (.invalidOrderColumn columnName)

/-- `compileOrderBy`. -/
def compileOrderBy (tableAlias : String) (orderBy : Value) :
    Except CompileError (List OrderTerm) :=
  match orderBy with
  | .null => .ok []
  | .obj orderMap => do
    let terms ← orderTerms tableAlias (GoMap.entries orderMap)
    .ok (Strings.sortBy OrderTerm.print terms)
  | _ => .error .orderByNotAnObject

/-- The operators that bind one argument. -/
def compareOp : String → Option CompareOp
  | "_eq" => some .eq
  | "_neq" => some .neq
  | "_gt" => some .gt
  | "_gte" => some .gte
  | "_lt" => some .lt
  | "_lte" => some .lte
  | "_like" => some .like
  | "_ilike" => some .ilike
  | _ => none

/-- The switch of `compileWhere` on one filter operator. An operator it does not list, and an
`_in` whose operand is not a list, produce nothing. -/
def compileFilter (tableAlias columnName filterOp : String) (conditionValue : Value)
    (argIndex : ℕ) : Compiled (List Condition) :=
  match compareOp filterOp with
  | some operator =>
    ⟨[.compare tableAlias columnName operator argIndex], [conditionValue], argIndex + 1⟩
  | none =>
    if filterOp = "_in" then
      match conditionValue with
      | .list [] => ⟨[.never], [], argIndex⟩
      | .list inArray =>
        ⟨[.inList tableAlias columnName (List.range' argIndex inArray.length)], inArray,
          argIndex + inArray.length⟩
      | _ => ⟨[], [], argIndex⟩
    else if filterOp = "_is_null" then
      match conditionValue with
      | .bool true => ⟨[.isNull tableAlias columnName], [], argIndex⟩
      | _ => ⟨[.isNotNull tableAlias columnName], [], argIndex⟩
    else ⟨[], [], argIndex⟩

/-- The loop of `compileWhere` over the operators of one column. -/
def compileFilters (tableAlias columnName : String) :
    List (String × Value) → ℕ → Compiled (List Condition)
  | [], argIndex => ⟨[], [], argIndex⟩
  | (filterOp, conditionValue) :: entries, argIndex =>
    let first := compileFilter tableAlias columnName filterOp conditionValue argIndex
    let rest := compileFilters tableAlias columnName entries first.next
    ⟨first.sql ++ rest.sql, first.args ++ rest.args, rest.next⟩

/-- The conditions on one column: a map of operators, or a value for direct equality. -/
def compileColumn (tableAlias columnName : String) (condition : Value) (argIndex : ℕ) :
    Compiled (List Condition) :=
  match condition with
  | .obj conditionMap =>
    compileFilters tableAlias columnName (GoMap.entries conditionMap) argIndex
  | value => ⟨[.compare tableAlias columnName .eq argIndex], [value], argIndex + 1⟩

/-- The loop of `compileWhere` over the columns. -/
def compileColumns (tableAlias : String) :
    List (String × Value) → ℕ → Except CompileError (Compiled (List Condition))
  | [], argIndex => .ok ⟨[], [], argIndex⟩
  | (columnName, condition) :: entries, argIndex =>
    if isValidIdentifier columnName then do
      let first := compileColumn tableAlias columnName condition argIndex
      let rest ← compileColumns tableAlias entries first.next
      .ok ⟨first.sql ++ rest.sql, first.args ++ rest.args, rest.next⟩
    else .error (.invalidWhereColumn columnName)

/-- `compileWhere`. -/
def compileWhere (tableAlias : String) (whereArg : Value) (startIndex : ℕ) :
    Except CompileError (Compiled (List Condition)) :=
  match whereArg with
  | .null => .ok ⟨[], [], startIndex⟩
  | .obj whereMap => compileColumns tableAlias (GoMap.entries whereMap) startIndex
  | _ => .error .whereNotAnObject

/-- The type switch on a `limit` or `offset` argument. -/
def compileBound (invalid : CompileError) : Option Value → Except CompileError (Option ℤ)
  | none => .ok none
  | some (.int bound) => .ok (some bound)
  | some (.float bound) => .ok (some bound.toInt64)
  | some _ => .error invalid

/-- `limit`. -/
def compileLimit (arguments : GoMap Value) : Except CompileError (Option ℤ) :=
  compileBound .limitNotAnInteger (arguments.get "limit")

/-- `offset`. -/
def compileOffset (arguments : GoMap Value) : Except CompileError (Option ℤ) :=
  compileBound .offsetNotAnInteger (arguments.get "offset")

/-! ## Relations -/

/-- The table and the join columns a nested relation resolves to. -/
structure RelationTarget where
  actualRelSchema : String
  actualRelTable : String
  foreignKeyColumn : String
  parentPrimaryKey : String
deriving DecidableEq, Repr

/-- The first lookup of `compileNestedRelation`: the relation's name as a table of the parent's
schema, or its singular or plural guess, with the name under which it was found. -/
def relationTable (schema relTable : String) : Option TableInfo × String :=
  match compiler.catalog.getTable schema relTable with
  | some info => (some info, relTable)
  | none =>
    let guess :=
      if Strings.hasSuffix relTable "s" then Strings.trimSuffix relTable "s" else relTable ++ "s"
    match compiler.catalog.getTable schema guess with
    | some info => (some info, guess)
    | none => (none, relTable)

/-- The second lookup: a foreign key of the relation's table back to the parent. -/
def applyRelationForeignKey (parentTable : String) (relationTableInfo : Option TableInfo)
    (target : RelationTarget) : RelationTarget :=
  match relationTableInfo.bind fun info => info.foreignKeys.get parentTable with
  | none => target
  | some relationInfo =>
    { target with
      foreignKeyColumn := relationInfo.localColumn
      parentPrimaryKey := relationInfo.targetColumn
      actualRelTable :=
        if relationInfo.foreignTable ≠ "" ∧ relationInfo.isArray = false then
          relationInfo.foreignTable
        else target.actualRelTable }

/-- The third lookup: a foreign key of the parent under the relation's name. -/
def applyParentForeignKey (relTable : String) (parentTableInfo : Option TableInfo)
    (target : RelationTarget) : RelationTarget :=
  match parentTableInfo.bind fun info => info.foreignKeys.get relTable with
  | none => target
  | some parentRelationInfo =>
    { foreignKeyColumn := parentRelationInfo.targetColumn
      parentPrimaryKey := parentRelationInfo.localColumn
      actualRelTable :=
        if parentRelationInfo.foreignTable ≠ "" then parentRelationInfo.foreignTable
        else target.actualRelTable
      actualRelSchema :=
        if parentRelationInfo.foreignSchema ≠ "" then parentRelationInfo.foreignSchema
        else target.actualRelSchema }

/-- The key of the parent table that a relation joins on when no foreign key says otherwise. -/
def parentKeyColumn : Option TableInfo → String
  | some info => if info.primaryKey ≠ "" then info.primaryKey else "id"
  | none => "id"

/-- The catalog lookups of `compileNestedRelation`. -/
def resolveRelation (schema parentTable relTable : String) : RelationTarget :=
  let parentTableInfo := compiler.catalog.getTable schema parentTable
  let (relationTableInfo, foundTable) := compiler.relationTable schema relTable
  applyParentForeignKey relTable parentTableInfo
    (applyRelationForeignKey parentTable relationTableInfo
      { actualRelSchema := schema
        actualRelTable := foundTable
        foreignKeyColumn := Strings.trimSuffix parentTable "s" ++ "_id"
        parentPrimaryKey := parentKeyColumn parentTableInfo })

/-! ## Queries -/

mutual

/-- `compileNestedRelation`. -/
def compileNestedRelation (schema parentTable parentAlias : String) (startIndex depth : ℕ) :
    FieldNode → Except CompileError (Compiled Select)
  | .mk relTable _ arguments selectionSet =>
    if isValidIdentifier relTable = false then .error (.invalidRelationTable relTable)
    else do
      let relationAlias := "t" ++ toString depth
      let pairs ← compileSelections schema relTable relationAlias startIndex (depth + 1)
        selectionSet
      let target := compiler.resolveRelation schema parentTable relTable
      let conditions ←
        compileWhere relationAlias ((arguments.get "where").getD .null) pairs.next
      let orderBy ← compileOrderBy relationAlias ((arguments.get "order_by").getD .null)
      let limit ← compileLimit arguments
      let offset ← compileOffset arguments
      .ok
        { sql := .mk pairs.sql target.actualRelSchema target.actualRelTable relationAlias
            (some ⟨relationAlias, target.foreignKeyColumn, parentAlias, target.parentPrimaryKey⟩)
            conditions.sql orderBy limit offset
          args := pairs.args ++ conditions.args
          next := conditions.next }

/-- The loop over a selection set, shared by root fields and relations. -/
def compileSelections (schema table tableAlias : String) (argIndex depth : ℕ) :
    List FieldNode → Except CompileError (Compiled (List SelectPair))
  | [] => .ok ⟨[], [], argIndex⟩
  | subField :: subFields =>
    if isValidIdentifier subField.responseKey = false then
      .error (.invalidSelectionAlias subField.responseKey)
    else if subField.selectionSet.isEmpty then
      if isValidIdentifier subField.name = false then
        .error (.invalidColumnIdentifier subField.name)
      else do
        let rest ← compileSelections schema table tableAlias argIndex depth subFields
        .ok { rest with sql := .column subField.responseKey tableAlias subField.name :: rest.sql }
    else do
      let query ← compileNestedRelation schema table tableAlias argIndex depth subField
      let rest ← compileSelections schema table tableAlias query.next depth subFields
      .ok ⟨.nested subField.responseKey query.sql :: rest.sql, query.args ++ rest.args, rest.next⟩

end

/-- The pairs of a root field without a selection set: every column of the catalog in the order
of the printed pairs, or the whole row of a table the catalog does not know. -/
def defaultPairs (schema table tableAlias : String) : List SelectPair :=
  match compiler.catalog.getTable schema table with
  | none => [.wholeRow table tableAlias]
  | some tableInfo =>
    if tableInfo.columns = [] then [.wholeRow table tableAlias]
    else Strings.sortBy SelectPair.print
      ((GoMap.keys tableInfo.columns).map fun columnName =>
        .column columnName tableAlias columnName)

/-- The checks made on the table of a root field. -/
def checkTable (schema table context : String) : Except CompileError Unit :=
  if compiler.isSchemaAllowed schema = false then .error (.schemaNotExposed schema)
  else if compiler.isTableExcluded schema table then .error (.tableExcluded table)
  else if isValidIdentifier table = false then .error (.invalidTableIdentifier table context)
  else .ok ()

/-- `compileRootQuery`. -/
def compileRootQuery (fieldNode : FieldNode) (startIndex : ℕ) :
    Except CompileError (Compiled Select) := do
  let (schema, table) := compiler.catalog.qualify compiler.defaultSchema fieldNode.name
  compiler.checkTable schema table ""
  if fieldNode.aliasName ≠ "" ∧ isValidIdentifier fieldNode.aliasName = false then
    .error (.invalidFieldAlias fieldNode.aliasName)
  else do
    let pairs ← compiler.compileSelections schema table "t0" startIndex 1 fieldNode.selectionSet
    let conditions ← compileWhere "t0" (fieldNode.argument "where") pairs.next
    let orderBy ← compileOrderBy "t0" (fieldNode.argument "order_by")
    let limit ← compileLimit fieldNode.arguments
    let offset ← compileOffset fieldNode.arguments
    let pairs' :=
      if pairs.sql.isEmpty then compiler.defaultPairs schema table "t0" else pairs.sql
    .ok
      { sql := .mk pairs' schema table "t0" none conditions.sql orderBy limit offset
        args := pairs.args ++ conditions.args
        next := conditions.next }

/-- The loop of `Compile` over the root fields of a query. -/
def compileRootQueries :
    List FieldNode → ℕ → Except CompileError (Compiled (List (String × Select)))
  | [], argIndex => .ok ⟨[], [], argIndex⟩
  | rootField :: rootFields, argIndex => do
    let query ← compiler.compileRootQuery rootField argIndex
    let rest ← compileRootQueries rootFields query.next
    .ok ⟨(rootField.responseKey, query.sql) :: rest.sql, query.args ++ rest.args, rest.next⟩

/-! ## Mutations -/

/-- The columns of an insert, checked one by one and sorted. -/
def insertColumns (recordMap : GoMap Value) : Except CompileError (List String) :=
  match (GoMap.keys recordMap).find? fun column => isValidIdentifier column = false with
  | some column => .error (.invalidInsertColumn column)
  | none => .ok (Strings.sort (GoMap.keys recordMap))

/-- The VALUES rows of an insert: each object gives the columns of the first one, `nil` where it
has no such key. An element that is no object panics. -/
def insertRows (columns : List String) :
    List Value → ℕ → Except CompileError (Compiled (List (List ℕ)))
  | [], argIndex => .ok ⟨[], [], argIndex⟩
  | .obj objectMap :: objects, argIndex => do
    let values := columns.map fun column => (GoMap.get column objectMap).getD .null
    let rest ← insertRows columns objects (argIndex + columns.length)
    .ok ⟨List.range' argIndex columns.length :: rest.sql, values ++ rest.args, rest.next⟩
  | _ :: _, _ => .error .notAnObject

/-- The insert branch of `compileMutations`. -/
def compileInsert (cteName name : String) (mutationField : FieldNode) (argIndex : ℕ) :
    Except CompileError (Compiled MutationCte) := do
  let (targetSchema, table) :=
    compiler.catalog.qualify compiler.defaultSchema (Strings.trimPrefix name "insert_")
  compiler.checkTable targetSchema table " in insert mutation"
  match mutationField.argument "objects" with
  | .list (.obj recordMap :: objects) => do
    let columns ← insertColumns recordMap
    let rows ← insertRows columns (.obj recordMap :: objects) argIndex
    .ok ⟨.insert cteName targetSchema table columns rows.sql, rows.args, rows.next⟩
  | .list (_ :: _) => .error .objectsElementsNotMaps
  | _ => .error .objectsRequired

/-- The loop over the `_set` map of an update. -/
def compileSets :
    List (String × Value) → ℕ → Except CompileError (Compiled (List (String × ℕ)))
  | [], argIndex => .ok ⟨[], [], argIndex⟩
  | (columnName, columnValue) :: entries, argIndex =>
    if isValidIdentifier columnName then do
      let rest ← compileSets entries (argIndex + 1)
      .ok ⟨(columnName, argIndex) :: rest.sql, columnValue :: rest.args, rest.next⟩
    else .error (.invalidUpdateColumn columnName)

/-- The `where` argument of an update or delete, which must give at least one condition. -/
def compileRequiredWhere (mutation table : String) (mutationField : FieldNode) (argIndex : ℕ) :
    Except CompileError (Compiled (List Condition)) :=
  match mutationField.argument "where" with
  | .null => .error (.whereRequired mutation)
  | whereArg => do
    let conditions ← compileWhere table whereArg argIndex
    if conditions.sql.isEmpty then .error (.whereRequired mutation) else .ok conditions

/-- The update branch of `compileMutations`. -/
def compileUpdate (cteName name : String) (mutationField : FieldNode) (argIndex : ℕ) :
    Except CompileError (Compiled MutationCte) := do
  let (targetSchema, table) :=
    compiler.catalog.qualify compiler.defaultSchema (Strings.trimPrefix name "update_")
  compiler.checkTable targetSchema table " in update mutation"
  match mutationField.argument "_set" with
  | .obj (entry :: updateMap) => do
    let sets ← compileSets (GoMap.entries (entry :: updateMap)) argIndex
    let conditions ← compileRequiredWhere "update" table mutationField sets.next
    .ok ⟨.update cteName targetSchema table sets.sql conditions.sql,
      sets.args ++ conditions.args, conditions.next⟩
  | _ => .error .setRequired

/-- The delete branch of `compileMutations`. -/
def compileDelete (cteName name : String) (mutationField : FieldNode) (argIndex : ℕ) :
    Except CompileError (Compiled MutationCte) := do
  let (targetSchema, table) :=
    compiler.catalog.qualify compiler.defaultSchema (Strings.trimPrefix name "delete_")
  compiler.checkTable targetSchema table " in delete mutation"
  let conditions ← compileRequiredWhere "delete" table mutationField argIndex
  .ok ⟨.delete cteName targetSchema table conditions.sql, conditions.args, conditions.next⟩

/-- One field of `compileMutations`: the branch its name selects. -/
def compileMutation (cteName : String) (mutationField : FieldNode) (argIndex : ℕ) :
    Except CompileError (Compiled MutationCte) :=
  let name := mutationField.name
  if Strings.hasPrefix name "insert_" then
    compiler.compileInsert cteName name mutationField argIndex
  else if Strings.hasPrefix name "update_" then
    compiler.compileUpdate cteName name mutationField argIndex
  else if Strings.hasPrefix name "delete_" then
    compiler.compileDelete cteName name mutationField argIndex
  else .error (.unsupportedMutation name)

/-- The selected columns of a mutation, invalid names left out. -/
def returningPairs (selectionSet : List FieldNode) : List (String × String) :=
  (selectionSet.filter fun subField =>
    isValidIdentifier subField.name && isValidIdentifier subField.responseKey).map
      fun subField => (subField.responseKey, subField.name)

/-- The loop of `compileMutations`, with the index that names the next CTE. -/
def compileMutations : List FieldNode → ℕ → ℕ →
    Except CompileError (Compiled (List MutationCte × List MutationResult))
  | [], _, argIndex => .ok ⟨([], []), [], argIndex⟩
  | mutationField :: fields, mutationIndex, argIndex => do
    let cteName := "m" ++ toString mutationIndex
    let cte ← compiler.compileMutation cteName mutationField argIndex
    let rest ← compileMutations fields (mutationIndex + 1) cte.next
    let result : MutationResult :=
      { name := mutationField.name, cteName
        returning := returningPairs mutationField.selectionSet }
    .ok ⟨(cte.sql :: rest.sql.1, result :: rest.sql.2), cte.args ++ rest.args, rest.next⟩

/-- `Compile`. -/
def compile (operationNode : OperationNode) : Except CompileError SQLQuery :=
  if operationNode.selectionSet.isEmpty then .error .emptySelectionSet
  else
    match operationNode.type with
    | .mutation => do
      let parts ← compiler.compileMutations operationNode.selectionSet 0 1
      .ok ⟨.mutation parts.sql.1 parts.sql.2, parts.args⟩
    | .query => do
      let parts ← compiler.compileRootQueries operationNode.selectionSet 1
      .ok ⟨.query parts.sql, parts.args⟩

end Compiler
end Layr.Graphql
