import Layr.Go.Result
import Layr.Go.Strconv
import Layr.Graphql.Ast

/-!
# The GraphQL parser (`data/graphql/parser.go`)

A recursive-descent parser over the runes of the document. The state keeps the runes already
consumed, the latest first, beside the rest: the source's `position` is their number, and
`input[position-1]` is their head. Loops and recursive calls run on fuel, of which the number of
runes plus two is always enough.
-/

namespace Layr.Graphql

open Go

/-- The errors of the parser, each with the operands of its message. -/
inductive ParseError
  | emptyDocument
  | subscriptionsNotSupported
  | expectedOperation (position : ℕ) (found : Char)
  | expectedSelectionSet (position : ℕ)
  | expectedFieldName (position : ℕ)
  | expectedFieldNameAfterAlias (position : ℕ)
  | expectedCloseBrace (position : ℕ)
  | expectedOpenParen (position : ℕ)
  | expectedArgumentName (position : ℕ)
  | expectedColonAfterArgument (position : ℕ)
  | expectedCloseParen (position : ℕ)
  | emptyArgumentList (position : ℕ)
  | expectedColonInObject (position : ℕ)
  | expectedCloseBraceInObject (position : ℕ)
  | expectedCloseBracketInArray (position : ℕ)
  | unexpectedCharacter (found : Char) (position : ℕ)
  | unterminatedString
  | invalidFloat (text : String)
  | invalidInt (text : String)
  | unknownOperation (name : String)
  | outOfFuel
deriving DecidableEq, Repr

/-- `Parser`. -/
structure Parser where
  consumed : List Char
  rest : List Char
deriving DecidableEq, Repr

namespace Parser

def position (parser : Parser) : ℕ := parser.consumed.length

/-- `isEOF`. -/
def isEOF (parser : Parser) : Bool := parser.rest.isEmpty

/-- `peekChar`, zero at the end. -/
def peekChar (parser : Parser) : Char := parser.rest.headD (Char.ofNat 0)

/-- `parser.position++`. -/
def advance (parser : Parser) : Parser :=
  match parser.rest with
  | [] => parser
  | c :: rest => ⟨c :: parser.consumed, rest⟩

/-- Consume the runes that satisfy `p`. -/
def takeRunes (p : Char → Bool) (parser : Parser) : List Char × Parser :=
  (parser.rest.takeWhile p,
    ⟨(parser.rest.takeWhile p).reverse ++ parser.consumed, parser.rest.dropWhile p⟩)

/-- The runes of an identifier. -/
def isIdentRune (c : Char) : Bool := Unicode.isLetter c || Unicode.isDigit c || c = '_'

/-- `readIdent`. -/
def readIdent (parser : Parser) : String × Parser :=
  let (runes, parser) := parser.takeRunes isIdentRune
  (String.ofList runes, parser)

/-- `peekIdent`. -/
def peekIdent (parser : Parser) : String := parser.readIdent.1

/-- The loop of `skipWhitespaceAndComments`; a comment runs up to the end of its line. -/
def skipFrom (insideComment : Bool) (consumed : List Char) : List Char → Parser
  | [] => ⟨consumed, []⟩
  | c :: rest =>
    if insideComment then skipFrom (c ≠ '\n') (c :: consumed) rest
    else if Unicode.isSpace c || c = ',' then skipFrom false (c :: consumed) rest
    else if c = '#' then skipFrom true (c :: consumed) rest
    else ⟨consumed, c :: rest⟩

/-- `skipWhitespaceAndComments`. -/
def skipWhitespaceAndComments (parser : Parser) : Parser :=
  skipFrom false parser.consumed parser.rest

/-! ## Literals -/

/-- The rune an escape stands for. -/
def unescape : Char → Char
  | 'n' => '\n'
  | 't' => '\t'
  | 'r' => '\r'
  | 'b' => Char.ofNat 8
  | 'f' => Char.ofNat 12
  | escaped => escaped

/-- The loop of `readString`, behind the opening quote. -/
def readStringFrom (consumed builder : List Char) :
    List Char → Except ParseError (String × Parser)
  | [] => .error .unterminatedString
  | '"' :: rest => .ok (String.ofList builder.reverse, ⟨'"' :: consumed, rest⟩)
  | '\\' :: escaped :: rest =>
    readStringFrom (escaped :: '\\' :: consumed) (unescape escaped :: builder) rest
  | current :: rest => readStringFrom (current :: consumed) (current :: builder) rest

theorem readStringFrom_plain {consumed builder rest : List Char} {c : Char} (hquote : c ≠ '"')
    (hescape : c ≠ '\\') :
    readStringFrom consumed builder (c :: rest) =
      readStringFrom (c :: consumed) (c :: builder) rest := by
  rw [readStringFrom]
  · exact hquote
  · intro _ _ heq
    exact absurd heq hescape

/-- `readString`. -/
def readString (parser : Parser) : Except ParseError (String × Parser) :=
  readStringFrom parser.advance.consumed [] parser.advance.rest

/-- The runes of a number. -/
def isNumberRune (c : Char) : Bool := c.isDigit || c = '-' || c = '.'

/-- `readNumber`. -/
def readNumber (parser : Parser) : Except ParseError (Value × Parser) :=
  let (runes, parser) := parser.takeRunes isNumberRune
  if runes.contains '.' then
    match Strconv.parseFloat runes with
    | some parsedFloat => .ok (.float parsedFloat, parser)
    | none => .error (.invalidFloat (String.ofList runes))
  else
    match Strconv.parseInt runes with
    | some parsedInteger => .ok (.int parsedInteger, parser)
    | none => .error (.invalidInt (String.ofList runes))

/-! ## Values and arguments -/

section

variable (vars : GoMap Value)

mutual

/-- `parseValue`. -/
def parseValue : ℕ → Parser → Except ParseError (Value × Parser)
  | 0, _ => .error .outOfFuel
  | fuel + 1, parser =>
    let parser := parser.skipWhitespaceAndComments
    let peeked := parser.peekChar
    if peeked = '$' then
      let (varName, parser) := parser.advance.readIdent
      .ok ((GoMap.get varName vars).getD .null, parser)
    else if peeked = '"' then do
      let (text, parser) ← parser.readString
      .ok (.str text, parser)
    else if peeked = '{' then do
      let (objectMap, parser) ← parseObject fuel [] parser.advance
      .ok (.obj objectMap, parser)
    else if peeked = '[' then do
      let (arrayItems, parser) ← parseArray fuel [] parser.advance
      .ok (.list arrayItems, parser)
    else if peeked.isDigit || peeked = '-' then parser.readNumber
    else
      let (ident, parser) := parser.readIdent
      if ident = "" then .error (.unexpectedCharacter peeked parser.position)
      else if ident = "true" then .ok (.bool true, parser)
      else if ident = "false" then .ok (.bool false, parser)
      else if ident = "null" then .ok (.null, parser)
      else .ok (.str ident, parser)

/-- The loop over the fields of an object, behind its opening brace. -/
def parseObject : ℕ → GoMap Value → Parser → Except ParseError (GoMap Value × Parser)
  | 0, _, _ => .error .outOfFuel
  | fuel + 1, objectMap, parser =>
    if parser.isEOF || parser.peekChar = '}' then
      if parser.peekChar ≠ '}' then .error (.expectedCloseBraceInObject parser.position)
      else .ok (objectMap, parser.advance)
    else
      let (fieldName, parser) := parser.skipWhitespaceAndComments.readIdent
      let parser := parser.skipWhitespaceAndComments
      if parser.peekChar ≠ ':' then .error (.expectedColonInObject parser.position)
      else do
        let (elementValue, parser) ← parseValue fuel parser.advance
        parseObject fuel (objectMap.set fieldName elementValue) parser.skipWhitespaceAndComments

/-- The loop over the elements of an array, behind its opening bracket. -/
def parseArray : ℕ → List Value → Parser → Except ParseError (List Value × Parser)
  | 0, _, _ => .error .outOfFuel
  | fuel + 1, arrayItems, parser =>
    if parser.isEOF || parser.peekChar = ']' then
      if parser.peekChar ≠ ']' then .error (.expectedCloseBracketInArray parser.position)
      else .ok (arrayItems, parser.advance)
    else do
      let (element, parser) ← parseValue fuel parser.skipWhitespaceAndComments
      parseArray fuel (arrayItems ++ [element]) parser.skipWhitespaceAndComments

end

/-- The loop of `parseArguments`. -/
def parseArgumentList : ℕ → GoMap Value → Parser → Except ParseError (GoMap Value × Parser)
  | 0, _, _ => .error .outOfFuel
  | fuel + 1, args, parser =>
    if parser.isEOF || parser.peekChar = ')' then
      if parser.peekChar ≠ ')' then .error (.expectedCloseParen parser.position)
      else if args.isEmpty then .error (.emptyArgumentList parser.advance.position)
      else .ok (args, parser.advance)
    else
      let (argName, parser) := parser.skipWhitespaceAndComments.readIdent
      if argName = "" then .error (.expectedArgumentName parser.position)
      else
        let parser := parser.skipWhitespaceAndComments
        if parser.peekChar ≠ ':' then .error (.expectedColonAfterArgument parser.position)
        else do
          let (parsedValue, parser) ←
            parseValue vars fuel parser.advance.skipWhitespaceAndComments
          parseArgumentList fuel (args.set argName parsedValue) parser.skipWhitespaceAndComments

/-- `parseArguments`. -/
def parseArguments (fuel : ℕ) (parser : Parser) : Except ParseError (GoMap Value × Parser) :=
  if parser.peekChar ≠ '(' then .error (.expectedOpenParen parser.position)
  else parseArgumentList vars fuel [] parser.advance.skipWhitespaceAndComments

/-! ## Selection sets -/

/-- The name of a field with its alias, when it has one. -/
def readFieldName (parser : Parser) : Except ParseError (String × String × Parser) :=
  let (fieldName, parser) := parser.skipWhitespaceAndComments.readIdent
  if fieldName = "" then .error (.expectedFieldName parser.position)
  else
    let parser := parser.skipWhitespaceAndComments
    if parser.peekChar = ':' then
      let (actualName, parser) := parser.advance.skipWhitespaceAndComments.readIdent
      if actualName = "" then .error (.expectedFieldNameAfterAlias parser.position)
      else .ok (fieldName, actualName, parser.skipWhitespaceAndComments)
    else .ok ("", fieldName, parser)

/-- The arguments of a field, when it has any. -/
def readFieldArguments (fuel : ℕ) (parser : Parser) :
    Except ParseError (GoMap Value × Parser) :=
  if parser.peekChar = '(' then do
    let (args, parser) ← parseArguments vars fuel parser
    .ok (args, parser.skipWhitespaceAndComments)
  else .ok ([], parser)

mutual

/-- `parseSelectionSet`. -/
def parseSelectionSet : ℕ → Parser → Except ParseError (List FieldNode × Parser)
  | 0, _ => .error .outOfFuel
  | fuel + 1, parser =>
    if parser.peekChar ≠ '{' then .error (.expectedSelectionSet parser.position)
    else parseFields fuel [] parser.advance.skipWhitespaceAndComments

/-- The loop of `parseSelectionSet`. -/
def parseFields : ℕ → List FieldNode → Parser → Except ParseError (List FieldNode × Parser)
  | 0, _, _ => .error .outOfFuel
  | fuel + 1, fields, parser =>
    if parser.isEOF || parser.peekChar = '}' then
      if parser.peekChar ≠ '}' then .error (.expectedCloseBrace parser.position)
      else .ok (fields, parser.advance.skipWhitespaceAndComments)
    else do
      let (aliasName, fieldName, parser) ← parser.readFieldName
      let (args, parser) ← readFieldArguments vars fuel parser
      let (subFields, parser) ←
        if parser.peekChar = '{' then do
          let (children, parser) ← parseSelectionSet fuel parser
          .ok (children, parser.skipWhitespaceAndComments)
        else .ok ([], parser)
      parseFields fuel (fields ++ [.mk fieldName aliasName args subFields]) parser

end

/-! ## Documents -/

/-- The variable definitions of an operation, skipped up to the matching parenthesis. -/
def skipDefinitions (insideStringLiteral : Bool) (parenDepth : ℕ) (consumed : List Char) :
    List Char → Parser
  | [] => ⟨consumed, []⟩
  | c :: rest =>
    if c = '"' ∧ consumed.head? ≠ some '\\' then
      skipDefinitions (!insideStringLiteral) parenDepth (c :: consumed) rest
    else if insideStringLiteral then
      skipDefinitions insideStringLiteral parenDepth (c :: consumed) rest
    else if c = '(' then skipDefinitions false (parenDepth + 1) (c :: consumed) rest
    else if c = ')' then
      if parenDepth - 1 = 0 then ⟨c :: consumed, rest⟩
      else skipDefinitions false (parenDepth - 1) (c :: consumed) rest
    else skipDefinitions false parenDepth (c :: consumed) rest

/-- The settings of the `@cache` directive. -/
structure CacheDirective where
  ttl : ℤ
  keySuffix : String
deriving DecidableEq, Repr

/-- The effect of one `@cache` directive on the settings read so far. -/
def CacheDirective.apply (settings : CacheDirective) (args : GoMap Value) : CacheDirective :=
  let ttl :=
    match GoMap.get "ttl" args with
    | some (.int ttl) => ttl
    | some (.float ttl) => ttl.toInt64
    | _ => settings.ttl
  let keySuffix :=
    match GoMap.get "key_suffix" args with
    | some (.str suffix) => suffix
    | _ =>
      match GoMap.get "key" args with
      | some (.str key) => key
      | _ => settings.keySuffix
  { ttl, keySuffix }

/-- The loop over the directives of an operation. -/
def parseDirectives : ℕ → CacheDirective → Parser → Except ParseError (CacheDirective × Parser)
  | 0, _, _ => .error .outOfFuel
  | fuel + 1, settings, parser =>
    if parser.peekChar = '@' then
      let (directiveName, parser) := parser.advance.readIdent
      let parser := parser.skipWhitespaceAndComments
      if parser.peekChar = '(' then do
        let (args, parser) ← parseArguments vars fuel parser
        parseDirectives fuel (if directiveName = "cache" then settings.apply args else settings)
          parser.skipWhitespaceAndComments
      else parseDirectives fuel settings parser.skipWhitespaceAndComments
    else .ok (settings, parser)

/-- The name of an operation behind its keyword, when it has one. -/
def readOperationName (parser : Parser) : String × Parser :=
  if parser.peekIdent ≠ "" ∧ parser.peekChar ≠ '{' ∧ parser.peekChar ≠ '(' ∧
      parser.peekChar ≠ '@' then
    let (operationName, parser) := parser.readIdent
    (operationName, parser.skipWhitespaceAndComments)
  else ("", parser)

/-- The variable definitions behind the name, when there are any. -/
def skipVariableDefinitions (parser : Parser) : Parser :=
  if parser.peekChar = '(' then
    (skipDefinitions false 0 parser.consumed parser.rest).skipWhitespaceAndComments
  else parser

/-- One operation of a document. -/
def parseOperation (fuel : ℕ) (parser : Parser) : Except ParseError (OperationNode × Parser) := do
  let token := parser.peekIdent
  if token = "subscription" then .error .subscriptionsNotSupported
  else
    let (type, operationName, settings, parser) ←
      if token = "query" ∨ token = "mutation" then do
        let type := if token = "mutation" then OperationType.mutation else .query
        let (operationName, parser) :=
          parser.readIdent.2.skipWhitespaceAndComments.readOperationName
        let (settings, parser) ←
          parseDirectives vars fuel ⟨0, ""⟩ parser.skipVariableDefinitions
        .ok (type, operationName, settings, parser)
      else .ok (OperationType.query, "", ⟨0, ""⟩, parser)
    if parser.peekChar ≠ '{' then .error (.expectedOperation parser.position parser.peekChar)
    else do
      let (fields, parser) ← parseSelectionSet vars fuel parser
      .ok (⟨type, operationName, settings.ttl, settings.keySuffix, fields⟩, parser)

/-- The loop over the operations of a document, up to the one that is asked for. -/
def parseOperations (targetOperationName : String) :
    ℕ → Parser → Except ParseError OperationNode
  | 0, _ => .error .outOfFuel
  | fuel + 1, parser =>
    if parser.isEOF then .error (.unknownOperation targetOperationName)
    else do
      let (operationNode, parser) ← parseOperation vars fuel parser
      if targetOperationName = "" ∨ operationNode.name = targetOperationName then
        .ok operationNode
      else parseOperations targetOperationName fuel parser.skipWhitespaceAndComments

end

end Parser

/-- `ParseGraphQLWithOperation`. -/
def parseGraphQLWithOperation (query targetOperationName : String) (vars : GoMap Value) :
    Except ParseError OperationNode :=
  let parser := Parser.skipWhitespaceAndComments ⟨[], query.toList⟩
  if parser.isEOF then .error .emptyDocument
  else Parser.parseOperations vars targetOperationName (query.toList.length + 2) parser

end Layr.Graphql
