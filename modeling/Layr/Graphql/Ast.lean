import Layr.Go.Any

/-!
# The GraphQL syntax tree (`data/graphql/parser.go`)

Variables are resolved while parsing, so a tree holds plain values only.
-/

namespace Layr.Graphql

open Go

/-- `OperationType`. -/
inductive OperationType
  | query
  | mutation
deriving DecidableEq, Repr, Inhabited

/-- `FieldNode`: a selected field, or a relation when it has a selection set of its own. -/
inductive FieldNode
  | mk (name aliasName : String) (arguments : GoMap Value) (selectionSet : List FieldNode)
deriving Repr, Inhabited

namespace FieldNode

def name : FieldNode → String
  | mk name _ _ _ => name

def aliasName : FieldNode → String
  | mk _ aliasName _ _ => aliasName

def arguments : FieldNode → GoMap Value
  | mk _ _ arguments _ => arguments

def selectionSet : FieldNode → List FieldNode
  | mk _ _ _ selectionSet => selectionSet

/-- The key a field has in the response: its alias, or else its name. -/
def responseKey (field : FieldNode) : String :=
  if field.aliasName ≠ "" then field.aliasName else field.name

/-- `field.Arguments[name]`, where a missing argument reads as `nil`. -/
def argument (field : FieldNode) (name : String) : Value :=
  (field.arguments.get name).getD .null

end FieldNode

/-- `OperationNode`. -/
structure OperationNode where
  type : OperationType
  name : String
  cacheTTL : ℤ
  cacheKeySuffix : String
  selectionSet : List FieldNode
deriving Repr, Inhabited

end Layr.Graphql
