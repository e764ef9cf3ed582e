import Layr.Go.Maps
import Layr.Go.Strconv
import Layr.Identifier

/-!
# Query parameters of the REST interface (`data/rest/filter.go`)

A list request gives its fields, embedded relations, filters, order and limits as URL
parameters. The parameters are a map, so filters stand in the order in which Go visits it.
-/

namespace Layr.Rest

open Go

/-- The operators of a filter. -/
inductive Operator
  | eq | neq | gt | gte | lt | lte | like | ilike | is | isIn | cs | fts
deriving DecidableEq, Repr

/-- The operator's text. -/
def Operator.text : Operator → String
  | eq => "eq"
  | neq => "neq"
  | gt => "gt"
  | gte => "gte"
  | lt => "lt"
  | lte => "lte"
  | like => "like"
  | ilike => "ilike"
  | is => "is"
  | isIn => "in"
  | cs => "cs"
  | fts => "fts"

/-- `FilterOp`. -/
structure FilterOp where
  column : String
  op : Operator
  value : String
  extra : String
  values : List String
  negated : Bool
deriving DecidableEq, Repr

/-- `OrderBy`. -/
structure OrderBy where
  column : String
  desc : Bool
  nullsLast : Bool
deriving DecidableEq, Repr

/-- `EmbeddedField`. -/
inductive EmbeddedField
  | mk (relation : String) (fields : List String) (children : List EmbeddedField)
deriving Repr

def EmbeddedField.relation : EmbeddedField → String
  | mk relation _ _ => relation

def EmbeddedField.fields : EmbeddedField → List String
  | mk _ fields _ => fields

/-- `QueryParams`. -/
structure QueryParams where
  fields : List String
  embedded : List EmbeddedField
  filters : List FilterOp
  orders : List OrderBy
  limit : ℤ
  offset : ℤ
  countExact : Bool
  onConflict : String
deriving Repr

/-- The errors of the parameters, each with the operands of its message. -/
inductive ParamError
  | invalidColumn (column : String)
  | missingPrefix (column : String)
  | invalidIs (column : String)
  | invalidIn (column : String)
  | invalidCs (column : String)
  | invalidLanguage (language : String)
  | unknownFilter (filterOp : String)
  | invalidOrderColumn (column : String)
  | invalidRelation (relation : String)
  | invalidField (field : String)
  | invalidSelect (cause : ParamError)
  | invalidOrder (cause : ParamError)
  | invalidLimit (value : String)
  | invalidOffset (value : String)
  | invalidOnConflict (value : String)
  | outOfFuel
deriving DecidableEq, Repr

/-- The messages of the errors. -/
def ParamError.message : ParamError → String
  | invalidColumn column => "invalid column name: " ++ column
  | missingPrefix column =>
    "invalid filter format for " ++ column ++ ": missing filter prefix (e.g. eq.value)"
  | invalidIs column =>
    "invalid 'is' filter for " ++ column ++ ": must be 'is.null' or 'is.not.null'"
  | invalidIn column =>
    "invalid 'in' filter syntax for " ++ column ++ ": must be in.(a,b,c)"
  | invalidCs column =>
    "invalid 'cs' filter syntax for " ++ column ++ ": must be cs.\x7ba,b\x7d"
  | invalidLanguage language => "invalid fts language: " ++ language
  | unknownFilter filterOp => "unknown filter clause: " ++ filterOp
  | invalidOrderColumn column => "invalid order column: " ++ column
  | invalidRelation relation => "invalid embedded relation identifier: " ++ relation
  | invalidField field => "invalid field identifier: " ++ field
  | invalidSelect cause => "invalid select syntax: " ++ cause.message
  | invalidOrder cause => "invalid order syntax: " ++ cause.message
  | invalidLimit value => "invalid limit parameter: " ++ value
  | invalidOffset value => "invalid offset parameter: " ++ value
  | invalidOnConflict value => "invalid on_conflict identifier: " ++ value
  | outOfFuel => ""

/-! ## Filters -/

/-- The parts of a list between its brackets, without blanks around them. -/
def listParts (value opening closing : String) : List String :=
  (Strings.split ',' (Strings.trimSuffix (Strings.trimPrefix value opening) closing)).map
    Strings.trimSpace

/-- The operators that compare with one value. -/
def comparison (filterOp : String) : Option Operator :=
  [Operator.eq, .neq, .gt, .gte, .lt, .lte, .like, .ilike].find? fun op => op.text = filterOp

/-- `parseFilter`. -/
def parseFilter (column raw : String) : Except ParamError FilterOp :=
  if !isValidIdentifier column then .error (.invalidColumn column)
  else
    let negated := Strings.hasPrefix raw "not."
    let trimmed := if negated then Strings.trimPrefix raw "not." else raw
    match Strings.cut '.' trimmed with
    | none => .error (.missingPrefix column)
    | some (filterOp, value) =>
      let filter : FilterOp :=
        { column, op := .eq, value := "", extra := "", values := [], negated }
      match comparison filterOp with
      | some op =>
        let value :=
          if op = .ilike ∨ op = .like then Strings.replaceRune '*' '%' value else value
        .ok { filter with op, value }
      | none =>
        if filterOp = "is" then
          if value ≠ "null" ∧ value ≠ "not.null" then .error (.invalidIs column)
          else .ok { filter with op := .is, value }
        else if filterOp = "in" then
          if !Strings.hasPrefix value "(" || !Strings.hasSuffix value ")" then
            .error (.invalidIn column)
          else .ok { filter with op := .isIn, values := listParts value "(" ")" }
        else if filterOp = "cs" then
          if !Strings.hasPrefix value "\x7b" || !Strings.hasSuffix value "\x7d" then
            .error (.invalidCs column)
          else .ok { filter with op := .cs, values := listParts value "\x7b" "\x7d" }
        else if Strings.hasPrefix filterOp "fts(" && Strings.hasSuffix filterOp ")" then
          let lang := Strings.trimSuffix (Strings.trimPrefix filterOp "fts(") ")"
          if !isValidIdentifier lang then .error (.invalidLanguage lang)
          else .ok { filter with op := .fts, value, extra := lang }
        else .error (.unknownFilter filterOp)

/-! ## Orders -/

/-- One modifier of an order. -/
def applyModifier (order : OrderBy) (modifier : String) : OrderBy :=
  let modifier := Strings.toLower modifier
  if modifier = "desc" then { order with desc := true }
  else if modifier = "asc" then { order with desc := false }
  else if modifier = "nullslast" then { order with nullsLast := true }
  else order

/-- One part of an order. -/
def parseOrderPart (part : String) : Except ParamError OrderBy :=
  let chunks := Strings.split '.' part
  let column := chunks.headD ""
  if !isValidIdentifier column then .error (.invalidOrderColumn column)
  else .ok (chunks.tail.foldl applyModifier ⟨column, false, false⟩)

/-- `parseOrder`. -/
def parseOrder (raw : String) : Except ParamError (List OrderBy) :=
  (((Strings.split ',' raw).map Strings.trimSpace).filter (· ≠ "")).mapM parseOrderPart

/-! ## Fields and relations -/

/-- The loop of `tokenizeSelect`. -/
def tokenizeFrom (results : List String) (current : List Char) (depth : ℤ) :
    List Char → List String
  | [] =>
    if current ≠ [] then results ++ [Strings.trimSpace (String.ofList current)] else results
  | c :: rest =>
    if c = '(' then tokenizeFrom results (current ++ [c]) (depth + 1) rest
    else if c = ')' then tokenizeFrom results (current ++ [c]) (depth - 1) rest
    else if c = ',' ∧ depth = 0 then
      if current ≠ [] then
        tokenizeFrom (results ++ [Strings.trimSpace (String.ofList current)]) [] depth rest
      else tokenizeFrom results current depth rest
    else tokenizeFrom results (current ++ [c]) depth rest

/-- `tokenizeSelect`. -/
def tokenizeSelect (selectExpression : String) : List String :=
  tokenizeFrom [] [] 0 selectExpression.toList

/-- The loop of `parseSelect` over its tokens. -/
def parseTokens (parseInner : String → Except ParamError (List String × List EmbeddedField)) :
    List String → Except ParamError (List String × List EmbeddedField)
  | [] => .ok ([], [])
  | token :: tokens =>
    match Strings.hasSuffix token ")", Strings.cut '(' token with
    | true, some (relation, behind) =>
      if !isValidIdentifier relation then .error (.invalidRelation relation)
      else do
        let (subFields, subEmbed) ← parseInner (Strings.trimSuffix behind ")")
        let (fields, embedded) ← parseTokens parseInner tokens
        .ok (fields, .mk relation subFields subEmbed :: embedded)
    | _, _ =>
      if token ≠ "*" ∧ !isValidIdentifier token then .error (.invalidField token)
      else do
        let (fields, embedded) ← parseTokens parseInner tokens
        .ok (token :: fields, embedded)

/-- `parseSelect`, with fuel for the nesting. -/
def parseSelectFrom : ℕ → String → Except ParamError (List String × List EmbeddedField)
  | 0, _ => .error .outOfFuel
  | fuel + 1, raw =>
    let raw := Strings.trimSpace raw
    if raw = "" ∨ raw = "*" then .ok (["*"], [])
    else parseTokens (parseSelectFrom fuel) (tokenizeSelect raw)

/-- `parseSelect`. -/
def parseSelect (raw : String) : Except ParamError (List String × List EmbeddedField) :=
  parseSelectFrom (raw.toList.length + 1) raw

/-! ## Parameters -/

/-- `strconv.Atoi` of a parameter that must not be negative. -/
def parseCount (text : String) : Option ℤ :=
  (Strconv.parseInt text.toList).filter (0 ≤ ·)

/-- One parameter. -/
def applyParam (maxLimit : ℤ) (queryParams : QueryParams) (rawKey : String)
    (valueList : List String) : Except ParamError QueryParams :=
  match valueList with
  | [] => .ok queryParams
  | firstValue :: _ =>
    if rawKey = "select" then do
      let (fields, embedded) ← (parseSelect firstValue).mapError .invalidSelect
      .ok { queryParams with fields, embedded }
    else if rawKey = "order" then do
      let orders ← (parseOrder firstValue).mapError .invalidOrder
      .ok { queryParams with orders }
    else if rawKey = "limit" then
      match parseCount firstValue with
      | none => .error (.invalidLimit firstValue)
      | some parsedLimit =>
        .ok { queryParams with limit := if parsedLimit > maxLimit then maxLimit else parsedLimit }
    else if rawKey = "offset" then
      match parseCount firstValue with
      | none => .error (.invalidOffset firstValue)
      | some parsedOffset => .ok { queryParams with offset := parsedOffset }
    else if rawKey = "count" then
      .ok (if firstValue = "exact" then { queryParams with countExact := true } else queryParams)
    else if rawKey = "on_conflict" then
      if !isValidIdentifier firstValue then .error (.invalidOnConflict firstValue)
      else .ok { queryParams with onConflict := firstValue }
    else if rawKey = "cache_ttl" ∨ rawKey = "cache_key" ∨ rawKey = "cache_key_suffix" then
      .ok queryParams
    else do
      let filters ← valueList.mapM (parseFilter rawKey)
      .ok { queryParams with filters := queryParams.filters ++ filters }

/-- `ParseQueryParams`. -/
def parseQueryParams (urlValues : GoMap (List String)) (defaultLimit maxLimit : ℤ) :
    Except ParamError QueryParams :=
  urlValues.entries.foldlM (fun queryParams e => applyParam maxLimit queryParams e.1 e.2)
    { fields := [], embedded := [], filters := [], orders := [], limit := defaultLimit,
      offset := 0, countExact := false, onConflict := "" }

end Layr.Rest
