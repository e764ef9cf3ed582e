import Layr.Kv.Keys
import Layr.Rest.Filter

/-!
# Statements of list requests (`data/rest/builder.go`)

`BuildSelect` prints a statement and collects its arguments at once. Here the statement is first
built as data, each clause with the operands it binds, and then printed with numbered
placeholders.
-/

namespace Layr.Rest

open Go

/-- `RelationForeignKey`. -/
structure RelationForeignKey where
  fromColumn : String
  toTable : String
  toColumn : String
deriving DecidableEq, Repr

/-- `TableMetadata`, the parts that queries read. -/
structure TableMetadata where
  primaryKey : String
  foreignKeys : GoMap RelationForeignKey
deriving DecidableEq, Repr

/-- `QueryBuilder`. -/
structure QueryBuilder where
  schema : String
  table : String
deriving DecidableEq, Repr

/-- `NewQueryBuilder`. -/
def newQueryBuilder (schema table : String) : QueryBuilder where
  schema := if schema = "" then "public" else schema
  table := table

/-- An argument of a statement. -/
inductive Argument
  | text (value : String)
  | array (values : List String)
deriving DecidableEq, Repr

/-- A clause of a condition, with the operands that become its arguments. -/
inductive Clause
  | compare (column operator value : String)
  | isNull (column : String) (null : Bool)
  | isIn (column : String) (negated : Bool) (values : List String)
  | contains (column : String) (negated : Bool) (values : List String)
  | search (language column : String) (negated : Bool) (value : String)
deriving DecidableEq, Repr

/-- A `SELECT` statement. -/
structure Select where
  columns : List String
  schema : String
  table : String
  clauses : List Clause
  orders : List OrderBy
  limit : ℤ
  offset : ℤ
deriving DecidableEq, Repr

/-- The error of a filter's column. -/
inductive BuildError
  | invalidColumn (column : String)
deriving DecidableEq, Repr

def BuildError.message : BuildError → String
  | invalidColumn column => "invalid column in filter: " ++ column

/-! ## Conditions -/

/-- A comparison by the operator that stands for it, or for its negation. -/
def comparisonClause (filterOp : FilterOp) (plain negated : String) : Clause :=
  .compare filterOp.column (if filterOp.negated then negated else plain) filterOp.value

/-- The clause of a filter. -/
def buildClause (filterOp : FilterOp) : Clause :=
  match filterOp.op with
  | .eq => comparisonClause filterOp "=" "!="
  | .neq => comparisonClause filterOp "!=" "="
  | .gt => comparisonClause filterOp ">" "<="
  | .gte => comparisonClause filterOp ">=" "<"
  | .lt => comparisonClause filterOp "<" ">="
  | .lte => comparisonClause filterOp "<=" ">"
  | .like => comparisonClause filterOp "LIKE" "NOT LIKE"
  | .ilike => comparisonClause filterOp "ILIKE" "NOT ILIKE"
  | .is =>
    .isNull filterOp.column ((filterOp.value = "null" && !filterOp.negated) ||
      (filterOp.value = "not.null" && filterOp.negated))
  | .isIn => .isIn filterOp.column filterOp.negated filterOp.values
  | .cs => .contains filterOp.column filterOp.negated filterOp.values
  | .fts => .search filterOp.extra filterOp.column filterOp.negated filterOp.value

/-- `buildWhere`. -/
def buildWhere : List FilterOp → Except BuildError (List Clause)
  | [] => .ok []
  | filterOp :: filters =>
    if !isValidIdentifier filterOp.column then .error (.invalidColumn filterOp.column)
    else do
      let clauses ← buildWhere filters
      .ok (buildClause filterOp :: clauses)

theorem buildWhere_of_accepted {filters : List FilterOp}
    (h : ∀ filterOp ∈ filters, isValidIdentifier filterOp.column) :
    buildWhere filters = .ok (filters.map buildClause) := by
  induction filters with
  | nil => rfl
  | cons filterOp filters ih =>
    have hcolumn := h filterOp (by simp)
    have htail := ih fun f hf => h f (by simp [hf])
    rw [buildWhere, if_neg (by simp [hcolumn]), htail]
    rfl

/-- The arguments of a clause. -/
def Clause.args : Clause → List Argument
  | compare _ _ value => [.text value]
  | isNull _ _ => []
  | isIn _ _ values => values.map .text
  | contains _ _ values => [.array values]
  | search _ _ _ value => [.text value]

/-- A placeholder. -/
def placeholder (index : ℕ) : String := "$" ++ Kv.decimal index

/-- A column of a table. -/
def qualified (table column : String) : String := "\"" ++ table ++ "\".\"" ++ column ++ "\""

/-- The text of a clause whose first argument has the given number. -/
def Clause.sql (table : String) (index : ℕ) : Clause → String
  | compare column operator _ =>
    qualified table column ++ " " ++ operator ++ " " ++ placeholder index
  | isNull column null => qualified table column ++ (if null then " IS NULL" else " IS NOT NULL")
  | isIn column negated values =>
    qualified table column ++ (if negated then " NOT IN (" else " IN (") ++
      Strings.join ", " ((List.range' index values.length).map placeholder) ++ ")"
  | contains column negated _ =>
    let clause := qualified table column ++ " @> " ++ placeholder index
    if negated then "NOT (" ++ clause ++ ")" else clause
  | search language column negated _ =>
    let clause := "to_tsvector('" ++ language ++ "', " ++ qualified table column ++
      ") @@ websearch_to_tsquery('" ++ language ++ "', " ++ placeholder index ++ ")"
    if negated then "NOT (" ++ clause ++ ")" else clause

/-- The texts of clauses, their arguments numbered through. -/
def clauseTexts (table : String) : ℕ → List Clause → List String
  | _, [] => []
  | index, clause :: clauses =>
    clause.sql table index :: clauseTexts table (index + clause.args.length) clauses

/-- The `WHERE` part of a statement. -/
def whereText (table : String) (clauses : List Clause) : String :=
  if clauses = [] then "" else " WHERE " ++ Strings.join " AND " (clauseTexts table 1 clauses)

/-! ## Columns -/

/-- The column of a field. -/
def fieldColumn (table field : String) : String :=
  if field = "*" then "\"" ++ table ++ "\".*" else qualified table field

/-- `jsonAggExpression`. -/
def jsonAggExpression (fields : List String) : String :=
  let pairs := (fields.filter isValidIdentifier).map fun field =>
    "'" ++ field ++ "', r.\"" ++ field ++ "\""
  if fields ≠ [] ∧ fields ≠ ["*"] ∧ pairs ≠ [] then
    "json_build_object(" ++ Strings.join ", " pairs ++ ")"
  else "to_json(r)"

/-- The column of an embedded relation. Its children are not read. -/
def embeddedColumn (builder : QueryBuilder) (metadata : TableMetadata) (embedded : EmbeddedField) :
    String :=
  let primaryKey := if metadata.primaryKey = "" then "id" else metadata.primaryKey
  let (table, column, rootColumn) :=
    match metadata.foreignKeys.get embedded.relation with
    | some foreignKey => (foreignKey.toTable, foreignKey.toColumn, foreignKey.fromColumn)
    | none => (embedded.relation, Strings.trimSuffix builder.table "s" ++ "_id", primaryKey)
  "(\n\t\t\t\tSELECT COALESCE(json_agg(" ++ jsonAggExpression embedded.fields ++
    "), '[]'::json)\n\t\t\t\tFROM \"" ++ builder.schema ++ "\".\"" ++ table ++
    "\" r\n\t\t\t\tWHERE r.\"" ++ column ++ "\" = " ++ qualified builder.table rootColumn ++
    "\n\t\t\t) AS \"" ++ embedded.relation ++ "\""

/-- `selectColumns`. -/
def selectColumns (builder : QueryBuilder) (metadata : TableMetadata) (queryParams : QueryParams) :
    List String :=
  (if queryParams.fields = [] then ["*"] else queryParams.fields).map (fieldColumn builder.table) ++
    queryParams.embedded.map (embeddedColumn builder metadata)

/-! ## Statements -/

/-- `BuildSelect`. -/
def buildSelect (builder : QueryBuilder) (queryParams : QueryParams) (metadata : TableMetadata) :
    Except BuildError Select := do
  let clauses ← buildWhere queryParams.filters
  .ok { columns := selectColumns builder metadata queryParams
        schema := builder.schema
        table := builder.table
        clauses
        orders := queryParams.orders
        limit := queryParams.limit
        offset := queryParams.offset }

/-- The text of an order. -/
def orderText (table : String) (order : OrderBy) : String :=
  qualified table order.column ++ (if order.desc then " DESC" else " ASC") ++
    (if order.nullsLast then " NULLS LAST" else "")

/-- `SQLStatement.SQL`. -/
def Select.sql (select : Select) : String :=
  "SELECT " ++ Strings.join ", " select.columns ++ " FROM " ++
    qualified select.schema select.table ++ whereText select.table select.clauses ++
    (if select.orders = [] then ""
      else " ORDER BY " ++ Strings.join ", " (select.orders.map (orderText select.table))) ++
    (if select.limit > 0 then " LIMIT " ++ Kv.decimal select.limit else "") ++
    (if select.offset > 0 then " OFFSET " ++ Kv.decimal select.offset else "")

end Layr.Rest
