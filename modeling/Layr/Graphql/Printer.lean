import Layr.Graphql.Parser

/-!
# Printing operations

The inverse of the parser on the operations a client can write out: a keyword, an optional
name, nested selection sets with aliases and arguments, and literal values, without blanks, since
the parser takes none between an opening bracket or brace of a value and what follows. `Printable`
says which trees have a text: names of ASCII letters, digits and underscores, integers of 64 bits,
and maps without repeated keys.
-/

namespace Layr.Graphql

open Go

/-! ## Text -/

/-- The two runes that end a string or start an escape are escaped. -/
def escapeRunes : List Char → List Char
  | [] => []
  | c :: runes =>
    if c = '"' ∨ c = '\\' then '\\' :: c :: escapeRunes runes else c :: escapeRunes runes

mutual

/-- A literal value. -/
def printValue : Value → List Char
  | .null => "null".toList
  | .bool true => "true".toList
  | .bool false => "false".toList
  | .int i => Strconv.formatInt i
  | .float _ => []
  | .str text => '"' :: escapeRunes text.toList ++ ['"']
  | .list items => '[' :: printItems items ++ [']']
  | .obj fields => '{' :: printEntries fields ++ ['}']

/-- The elements of a list, separated by commas. -/
def printItems : List Value → List Char
  | [] => []
  | item :: items => printValue item ++ printMoreItems items

/-- The elements behind the first one. -/
def printMoreItems : List Value → List Char
  | [] => []
  | item :: items => ',' :: printValue item ++ printMoreItems items

/-- The entries of an object or an argument list, separated by commas. -/
def printEntries : List (String × Value) → List Char
  | [] => []
  | (key, value) :: entries => key.toList ++ ':' :: printValue value ++ printMoreEntries entries

/-- The entries behind the first one. -/
def printMoreEntries : List (String × Value) → List Char
  | [] => []
  | (key, value) :: entries =>
    ',' :: key.toList ++ ':' :: printValue value ++ printMoreEntries entries

end

/-- The name of a field behind its alias. -/
def printFieldName (aliasName name : String) : List Char :=
  if aliasName = "" then name.toList else aliasName.toList ++ ':' :: name.toList

/-- The argument list of a field, left out when it is empty. -/
def printArguments : GoMap Value → List Char
  | [] => []
  | args => '(' :: printEntries args ++ [')']

mutual

def printField : FieldNode → List Char
  | .mk name aliasName arguments selectionSet =>
    printFieldName aliasName name ++ printArguments arguments ++ printSelectionSet selectionSet

/-- The selection set of a field, left out when it is empty. -/
def printSelectionSet : List FieldNode → List Char
  | [] => []
  | field :: fields => '{' :: printField field ++ printMoreFields fields ++ ['}']

/-- The fields behind the first one, separated by blanks. -/
def printMoreFields : List FieldNode → List Char
  | [] => []
  | field :: fields => ' ' :: printField field ++ printMoreFields fields

end

/-- The fields of a selection set. -/
def printFields : List FieldNode → List Char
  | [] => []
  | field :: fields => printField field ++ printMoreFields fields

/-- The keyword of an operation. -/
def OperationType.keyword : OperationType → String
  | query => "query"
  | mutation => "mutation"

/-- The name of an operation between its keyword and its selection set. -/
def printOperationName (name : String) : List Char :=
  if name = "" then [] else ' ' :: name.toList

/-- The text of an operation. -/
def printOperation (operationNode : OperationNode) : String :=
  String.ofList (operationNode.type.keyword.toList ++ (printOperationName operationNode.name ++
    '{' :: (printFields operationNode.selectionSet ++ ['}'])))

/-! ## Operations with a text -/

/-- The runes a name may start with. -/
def isNameStart (c : Char) : Bool := c.isAlpha || c = '_'

/-- The runes of a name. -/
def isNameRune (c : Char) : Bool := c.isAlphanum || c = '_'

/-- ASCII letters, digits and underscores, not starting with a digit. -/
def isName (name : String) : Bool :=
  match name.toList with
  | [] => false
  | first :: runes => isNameStart first && runes.all isNameRune

mutual

/-- A value with a literal: any string, list or object of such, and integers of 64 bits. -/
def isPrintable : Value → Bool
  | .int i => -2 ^ 63 ≤ i && i < 2 ^ 63
  | .float _ => false
  | .list items => arePrintable items
  | .obj fields => entriesPrintable fields
  | _ => true

def arePrintable : List Value → Bool
  | [] => true
  | item :: items => isPrintable item && arePrintable items

/-- Named entries without repeated keys. -/
def entriesPrintable : List (String × Value) → Bool
  | [] => true
  | (key, value) :: entries =>
    isName key && !(entries.any fun entry => entry.1 = key) && isPrintable value &&
      entriesPrintable entries

end

mutual

def FieldNode.isPrintable : FieldNode → Bool
  | .mk name aliasName arguments selectionSet =>
    isName name && (aliasName = "" || isName aliasName) && entriesPrintable arguments &&
      fieldsPrintable selectionSet

def fieldsPrintable : List FieldNode → Bool
  | [] => true
  | field :: fields => field.isPrintable && fieldsPrintable fields

end

/-- An operation with a text. The cache settings come from directives, which it has none of. -/
structure OperationNode.Printable (operationNode : OperationNode) : Prop where
  name : operationNode.name = "" ∨ isName operationNode.name
  cacheTTL : operationNode.cacheTTL = 0
  cacheKeySuffix : operationNode.cacheKeySuffix = ""
  selectionSet : fieldsPrintable operationNode.selectionSet

end Layr.Graphql
