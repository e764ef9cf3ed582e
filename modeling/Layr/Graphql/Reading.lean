import Layr.Graphql.Compiler

/-!
# What an operation states and what its SQL says

An operation states conjuncts (the `where` arguments of its fields, wherever they stand) and
assignments (the inserted objects and the `_set` entries). A statement says conjuncts and
assignments too, once its placeholders are replaced by arguments. Both are read here into the
same data, each without looking at the other, so that the two can be compared.
-/

namespace Layr.Graphql

open Go

/-! ## The common form -/

/-- One conjunct of a condition: a column, an operator under its GraphQL name and its operand.
Membership in the empty list is `never`. -/
inductive Conjunct
  | filter (column filterOp : String) (operand : Value)
  | never

/-- What is stated in one place: conjuncts, the assignments of each inserted row, and those to
the rows that the conjuncts select. -/
structure Stated where
  conjuncts : List Conjunct
  rows : List (List (String × Value))
  sets : List (String × Value)

/-- What is stated on one block, under their response keys on its relations, and on its plain
columns. -/
inductive Reading
  | mk (stated : Stated) (relations : List (String × Reading)) (columns : List Stated)

/-- What is stated by a mutation, and on the fields selected from the written rows. -/
structure MutationReading extends Stated where
  below : List Stated

inductive OperationReading
  | query (fields : List (String × Reading))
  | mutation (fields : List MutationReading)

/-! ## Reading an operation -/

/-- The column, operator and operand triples of one column: a map of operators, or a value that
the column equals. -/
def columnFilters (column : String) : Value → List (String × String × Value)
  | .obj conditionMap => (GoMap.entries conditionMap).map fun entry => (column, entry.1, entry.2)
  | value => [(column, "_eq", value)]

/-- The triples of a `where` argument. -/
def whereFilters : Value → List (String × String × Value)
  | .obj whereMap => (GoMap.entries whereMap).flatMap fun entry => columnFilters entry.1 entry.2
  | _ => []

/-- What a triple states. -/
def statedConjunct : String × String × Value → Conjunct
  | (_, "_in", .list []) => .never
  | (column, filterOp, operand) => .filter column filterOp operand

/-- What a `where` argument states. -/
def statedWhere (whereArg : Value) : List Conjunct := (whereFilters whereArg).map statedConjunct

/-- The assignments of a row, ordered by column. -/
def statedRow (object : Value) : List (String × Value) :=
  Strings.sortBy Prod.fst (GoMap.entries (object.asMap.getD []))

/-- What the arguments of a field state, whatever becomes of it. -/
def FieldNode.stated (field : FieldNode) : Stated where
  conjuncts := statedWhere (field.argument "where")
  rows := ((field.argument "objects").asList.getD []).map statedRow
  sets := GoMap.entries ((field.argument "_set").asMap.getD [])

/-- A statement if there is one. -/
def Stated.toList (stated : Stated) : List Stated :=
  if stated.conjuncts.isEmpty && stated.rows.isEmpty && stated.sets.isEmpty then [] else [stated]

/-- What is stated on the fields of a selection set that select nothing. -/
def columnsStated (fields : List FieldNode) : List Stated :=
  (fields.filter fun field => field.selectionSet.isEmpty).flatMap fun field => field.stated.toList

mutual

/-- What a field that reads rows states. -/
def FieldNode.reading : FieldNode → Reading
  | .mk name aliasName arguments selectionSet =>
    .mk (FieldNode.stated (.mk name aliasName arguments selectionSet))
      (relationReadings selectionSet) (columnsStated selectionSet)

/-- What the relations of a selection set state. -/
def relationReadings : List FieldNode → List (String × Reading)
  | [] => []
  | subField :: subFields =>
    if subField.selectionSet.isEmpty then relationReadings subFields
    else (subField.responseKey, subField.reading) :: relationReadings subFields

end

mutual

/-- What is stated on a field and on all fields below it. -/
def FieldNode.allStated : FieldNode → List Stated
  | .mk name aliasName arguments selectionSet =>
    (FieldNode.stated (.mk name aliasName arguments selectionSet)).toList ++
      statedBelow selectionSet

/-- What is stated on the fields of a selection set, at any depth. -/
def statedBelow : List FieldNode → List Stated
  | [] => []
  | subField :: subFields => subField.allStated ++ statedBelow subFields

end

/-- What a mutation field states. -/
def FieldNode.mutationReading (field : FieldNode) : MutationReading :=
  ⟨field.stated, statedBelow field.selectionSet⟩

/-- What an operation states. -/
def OperationNode.reading (operationNode : OperationNode) : OperationReading :=
  match operationNode.type with
  | .query => .query (operationNode.selectionSet.map
      fun field => (field.responseKey, field.reading))
  | .mutation => .mutation (operationNode.selectionSet.map FieldNode.mutationReading)

/-! ## Reading a statement -/

/-- The GraphQL name of an operator. -/
def CompareOp.filterOp : CompareOp → String
  | eq => "_eq"
  | neq => "_neq"
  | gt => "_gt"
  | gte => "_gte"
  | lt => "_lt"
  | lte => "_lte"
  | like => "_like"
  | ilike => "_ilike"

/-- A column of the block that is read as `rowName`; a column of anything else keeps its
qualifier. -/
def resolveColumn (rowName qualifier column : String) : String :=
  if qualifier = rowName then column else qualifier ++ "." ++ column

section

variable (σ : ℕ → Value)

/-- What a condition says about the row `rowName` when `σ` gives the placeholders their
values. -/
def Condition.reading (rowName : String) : Condition → Conjunct
  | compare qualifier column operator index =>
    .filter (resolveColumn rowName qualifier column) operator.filterOp (σ index)
  | inList qualifier column indices =>
    .filter (resolveColumn rowName qualifier column) "_in" (.list (indices.map σ))
  | never => .never
  | isNull qualifier column =>
    .filter (resolveColumn rowName qualifier column) "_is_null" (.bool true)
  | isNotNull qualifier column =>
    .filter (resolveColumn rowName qualifier column) "_is_null" (.bool false)

mutual

/-- What a block says. -/
def Select.reading : Select → Reading
  | .mk pairs _ _ tableAlias _ conditions _ _ _ =>
    .mk ⟨conditions.map (Condition.reading σ tableAlias), [], []⟩ (pairReadings pairs) []

/-- What the relations among the pairs of a block say. -/
def pairReadings : List SelectPair → List (String × Reading)
  | [] => []
  | .nested label query :: pairs => (label, query.reading) :: pairReadings pairs
  | .column _ _ _ :: pairs => pairReadings pairs
  | .wholeRow _ _ :: pairs => pairReadings pairs

end

/-- What a mutation says. -/
def MutationCte.reading : MutationCte → MutationReading
  | insert _ _ _ columns rows => ⟨⟨[], rows.map fun row => columns.zip (row.map σ), []⟩, []⟩
  | update _ _ table sets conditions =>
    ⟨⟨conditions.map (Condition.reading σ table), [],
      sets.map fun entry => (entry.1, σ entry.2)⟩, []⟩
  | delete _ _ table conditions => ⟨⟨conditions.map (Condition.reading σ table), [], []⟩, []⟩

/-- What a statement says. -/
def Statement.reading : Statement → OperationReading
  | query fields => .query (fields.map fun field => (field.1, field.2.reading σ))
  | mutation ctes _ => .mutation (ctes.map (MutationCte.reading σ))

end

/-- What a compiled query says with its arguments in place of `$1`, `$2`, and so on. -/
def SQLQuery.reading (query : SQLQuery) : OperationReading :=
  query.statement.reading fun index => query.args.getD (index - 1) .null

/-! ## The operations the compiler understands -/

/-- The operators `compileWhere` has a case for, with an operand the case can express. -/
def isUnderstood : String × String × Value → Bool
  | (_, "_in", operand) => operand.asList.isSome
  | (_, "_is_null", .bool _) => true
  | (_, filterOp, _) => (Compiler.compareOp filterOp).isSome

/-- Every condition of a `where` argument is understood. -/
def whereUnderstood (whereArg : Value) : Bool := (whereFilters whereArg).all isUnderstood

mutual

/-- Every condition of a field and of the relations below it is understood, nothing is assigned
and nothing is stated on a plain column. -/
def FieldNode.understood : FieldNode → Bool
  | .mk name aliasName arguments selectionSet =>
    let field : FieldNode := .mk name aliasName arguments selectionSet
    whereUnderstood (field.argument "where") && field.stated.rows.isEmpty &&
      field.stated.sets.isEmpty && relationsUnderstood selectionSet &&
      (columnsStated selectionSet).isEmpty

def relationsUnderstood : List FieldNode → Bool
  | [] => true
  | subField :: subFields =>
    (subField.selectionSet.isEmpty || subField.understood) && relationsUnderstood subFields

end

/-- The objects of an insert all have the keys of the first one. -/
def uniformRows : List Value → Bool
  | [] => true
  | object :: objects =>
    objects.all fun other =>
      Strings.sort (GoMap.keys (other.asMap.getD [])) =
        Strings.sort (GoMap.keys (object.asMap.getD []))

/-- An insert states rows with the same keys, an update assignments and conditions, a delete
conditions, each of them nothing else, the conditions are understood, and nothing is stated on
the fields selected from the written rows. -/
def FieldNode.mutationUnderstood (field : FieldNode) : Bool :=
  (if Strings.hasPrefix field.name "insert_" then
    field.stated.conjuncts.isEmpty &&
      uniformRows ((field.argument "objects").asList.getD []) && field.stated.sets.isEmpty
  else whereUnderstood (field.argument "where") && field.stated.rows.isEmpty &&
    (Strings.hasPrefix field.name "update_" || field.stated.sets.isEmpty)) &&
      (statedBelow field.selectionSet).isEmpty

/-- The condition on a whole operation. -/
def OperationNode.understood (operationNode : OperationNode) : Bool :=
  match operationNode.type with
  | .query => operationNode.selectionSet.all FieldNode.understood
  | .mutation => operationNode.selectionSet.all FieldNode.mutationUnderstood

end Layr.Graphql
