import Layr.Go.Strings

/-!
# The SQL the GraphQL compiler assembles

The compiler builds its statement with nested `fmt.Sprintf` calls. The model keeps the pieces of
each format apart, so that a table position can be pointed at, and prints them as tokens: the fixed
text of the formats, the names put into it, and the placeholders. `Statement.print`, the tokens side
by side, is the text that is sent to Postgres.
-/

namespace Layr.Graphql

open Go

/-! ## Syntax -/

/-- The operators that compare a column with one argument. -/
inductive CompareOp
  | eq | neq | gt | gte | lt | lte | like | ilike
deriving DecidableEq, Repr

/-- One conjunct of a WHERE clause. Placeholders are held by their numbers. -/
inductive Condition
  | compare (qualifier column : String) (operator : CompareOp) (index : ℕ)
  | inList (qualifier column : String) (indices : List ℕ)
  | never
  | isNull (qualifier column : String)
  | isNotNull (qualifier column : String)
deriving DecidableEq, Repr

/-- One term of an ORDER BY clause. -/
structure OrderTerm where
  qualifier : String
  column : String
  direction : String
deriving DecidableEq, Repr

/-- The predicate that ties a nested relation to its parent. -/
structure JoinCondition where
  relationAlias : String
  foreignKeyColumn : String
  parentAlias : String
  parentPrimaryKey : String
deriving DecidableEq, Repr

mutual

/-- One `SELECT COALESCE(json_agg(..), '[]'::json) FROM ..` block. -/
inductive Select
  | mk (pairs : List SelectPair) (schema table tableAlias : String) (join : Option JoinCondition)
      (conditions : List Condition) (orderBy : List OrderTerm) (limit offset : Option ℤ)

/-- One label and value of its `json_build_object`. -/
inductive SelectPair
  | column (label qualifier column : String)
  | nested (label : String) (query : Select)
  | wholeRow (label qualifier : String)

end

/-- One `WITH` entry of a mutation. -/
inductive MutationCte
  | insert (cteName schema table : String) (columns : List String) (rows : List (List ℕ))
  | update (cteName schema table : String) (sets : List (String × ℕ)) (conditions : List Condition)
  | delete (cteName schema table : String) (conditions : List Condition)
deriving DecidableEq, Repr

/-- What a mutation field returns: its name, its CTE and the selected columns with their labels. -/
structure MutationResult where
  name : String
  cteName : String
  returning : List (String × String)
deriving DecidableEq, Repr

/-- A compiled operation. -/
inductive Statement
  | query (fields : List (String × Select))
  | mutation (ctes : List MutationCte) (results : List MutationResult)

/-! ## Tokens -/

/-- A piece of a printed statement: fixed text of a format, an identifier or a response key put
into it, or a placeholder. -/
inductive Token
  | text (content : String)
  | name (content : String)
  | placeholder (index : ℕ)
deriving DecidableEq, Repr

/-- `$%d` for a placeholder. -/
def Token.print : Token → String
  | text content => content
  | name content => content
  | placeholder index => "$" ++ toString index

/-- The text of a list of tokens. -/
def render : List Token → String
  | [] => ""
  | token :: tokens => token.print ++ render tokens

/-- The tokens of a list of parts with `separator` between them, as `strings.Join` prints it. -/
def joinTokens (separator : String) : List (List Token) → List Token
  | [] => []
  | [part] => part
  | part :: parts => part ++ .text separator :: joinTokens separator parts

/-! ## Printing -/

def CompareOp.print : CompareOp → String
  | eq => "="
  | neq => "!="
  | gt => ">"
  | gte => ">="
  | lt => "<"
  | lte => "<="
  | like => "LIKE"
  | ilike => "ILIKE"

/-- ` LIMIT %d` and ` OFFSET %d`. -/
def printBound (keyword : String) : Option ℤ → String
  | none => ""
  | some bound => " " ++ keyword ++ " " ++ toString bound

/-- `%s."%s"`. -/
def columnTokens (qualifier column : String) : List Token :=
  [.name qualifier, .text ".\"", .name column, .text "\""]

/-- `"%s"."%s"`. -/
def tableTokens (schema table : String) : List Token :=
  [.text "\"", .name schema, .text "\".\"", .name table, .text "\""]

def Condition.tokens : Condition → List Token
  | compare qualifier column operator index =>
    columnTokens qualifier column ++
      [.text " ", .text operator.print, .text " ", .placeholder index]
  | inList qualifier column indices =>
    columnTokens qualifier column ++ .text " IN (" ::
      joinTokens ", " (indices.map fun index => [.placeholder index]) ++ [.text ")"]
  | never => [.text "FALSE"]
  | isNull qualifier column => columnTokens qualifier column ++ [.text " IS NULL"]
  | isNotNull qualifier column => columnTokens qualifier column ++ [.text " IS NOT NULL"]

/-- The conjuncts of a WHERE clause. -/
def conditionsTokens (conditions : List Condition) : List Token :=
  joinTokens " AND " (conditions.map Condition.tokens)

def OrderTerm.tokens (term : OrderTerm) : List Token :=
  columnTokens term.qualifier term.column ++ [.text " ", .text term.direction]

/-- The clause with its leading blank, empty without terms. -/
def orderByTokens (terms : List OrderTerm) : List Token :=
  if terms = [] then []
  else .text " ORDER BY " :: joinTokens ", " (terms.map OrderTerm.tokens)

def JoinCondition.tokens (join : JoinCondition) : List Token :=
  columnTokens join.relationAlias join.foreignKeyColumn ++ .text " = " ::
    columnTokens join.parentAlias join.parentPrimaryKey

/-- The WHERE clause: the join predicate, when there is one, before the conditions. -/
def whereTokens : Option JoinCondition → List Condition → List Token
  | none, [] => []
  | none, conditions => .text " WHERE " :: conditionsTokens conditions
  | some join, [] => .text " WHERE " :: join.tokens
  | some join, conditions =>
    .text " WHERE " :: join.tokens ++ .text " AND " :: conditionsTokens conditions

mutual

def Select.tokens : Select → List Token
  | .mk pairs schema table tableAlias join conditions orderBy limit offset =>
    .text "SELECT COALESCE(json_agg(json_build_object(" :: joinTokens ", " (pairsTokens pairs)
      ++ .text ")), '[]'::json) FROM " :: tableTokens schema table
      ++ [.text " ", .name tableAlias] ++ whereTokens join conditions ++ orderByTokens orderBy
      ++ [.text (printBound "LIMIT" limit), .text (printBound "OFFSET" offset)]

def SelectPair.tokens : SelectPair → List Token
  | .column label qualifier column =>
    [.text "'", .name label, .text "', "] ++ columnTokens qualifier column
  | .nested label query => [.text "'", .name label, .text "', ("] ++ query.tokens ++ [.text ")"]
  | .wholeRow label qualifier =>
    [.text "'", .name label, .text "', to_jsonb(", .name qualifier, .text ")"]

def pairsTokens : List SelectPair → List (List Token)
  | [] => []
  | pair :: pairs => pair.tokens :: pairsTokens pairs

end

/-- `(%s)` around the placeholders of one row. -/
def rowTokens (row : List ℕ) : List Token :=
  .text "(" :: joinTokens ", " (row.map fun index => [.placeholder index]) ++ [.text ")"]

/-- `"%s" = $%d`. -/
def setTokens (entry : String × ℕ) : List Token :=
  [.text "\"", .name entry.1, .text "\" = ", .placeholder entry.2]

def MutationCte.tokens : MutationCte → List Token
  | insert cteName schema table columns rows =>
    [.name cteName, .text " AS (\n\t\t\t\tINSERT INTO "] ++ tableTokens schema table
      ++ .text " (" ::
        joinTokens ", " (columns.map fun column => [.text "\"", .name column, .text "\""])
      ++ .text ") VALUES " :: joinTokens ", " (rows.map rowTokens)
      ++ [.text " RETURNING *\n\t\t\t)"]
  | update cteName schema table sets conditions =>
    [.name cteName, .text " AS (\n\t\t\t\tUPDATE "] ++ tableTokens schema table
      ++ .text " SET " :: joinTokens ", " (sets.map setTokens)
      ++ .text " WHERE " :: conditionsTokens conditions ++ [.text " RETURNING *\n\t\t\t)"]
  | delete cteName schema table conditions =>
    [.name cteName, .text " AS (\n\t\t\t\tDELETE FROM "] ++ tableTokens schema table
      ++ .text " WHERE " :: conditionsTokens conditions ++ [.text " RETURNING *\n\t\t\t)"]

def MutationResult.tokens (result : MutationResult) : List Token :=
  let row :=
    if result.returning = [] then [.text "to_json(", .name result.cteName, .text ")"]
    else .text "json_build_object(" :: joinTokens ", " (result.returning.map fun pair =>
      [.text "'", .name pair.1, .text "', "] ++ columnTokens result.cteName pair.2)
        ++ [.text ")"]
  [.text "'", .name result.name, .text "', (SELECT COALESCE(json_agg("] ++ row
    ++ [.text "), '[]'::json) FROM ", .name result.cteName, .text ")"]

def Statement.tokens : Statement → List Token
  | query fields =>
    .text "SELECT json_build_object(" :: joinTokens ", " (fields.map fun field =>
      [.text "'", .name field.1, .text "', ("] ++ field.2.tokens ++ [.text ")"]) ++ [.text ")"]
  | mutation ctes results =>
    .text "WITH " :: joinTokens ", " (ctes.map MutationCte.tokens)
      ++ .text " SELECT json_build_object(" ::
        joinTokens ", " (results.map MutationResult.tokens) ++ [.text ")"]

/-- The text of an ORDER BY term, by which the terms are sorted. -/
def OrderTerm.print (term : OrderTerm) : String := render term.tokens

/-- The text of a pair, by which default pairs are sorted. -/
def SelectPair.print (pair : SelectPair) : String := render pair.tokens

/-- The text of a compiled operation. -/
def Statement.print (statement : Statement) : String := render statement.tokens

end Layr.Graphql
