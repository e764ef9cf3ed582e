import Layr.Graphql.Parser
import Layr.Kv.Keys

/-!
# The GraphQL handler up to the cache

`handleExecuteGraphQL` parses the document, checks depth and complexity, bounds the limits of the
root fields and, if the result may be cached, computes the key that it looks the result up with.
Behind the lookup only the operation and the caller matter.
-/

namespace Layr.Cache.Graphql

open Go Kv Layr.Graphql

/-- The settings that the handler reads. -/
structure GraphqlConfig where
  enabled : Bool
  maxDepth : ℤ
  maxComplexity : ℤ
  introspectionEnabled : Bool
  defaultLimit : ℤ
  restDefaultLimit : ℤ
  restMaxLimit : ℤ
  cacheEnabled : Bool
  queryTTLSeconds : ℤ
deriving DecidableEq, Repr

theorem fieldsDecoded_nil : Value.fieldsDecoded [] := rfl

/-- `ExecuteGraphQLInput`, whose variables a JSON decoder has made. -/
structure ExecuteGraphQLInput where
  query : String
  operationName : String
  vars : GoMap Value
  decoded : Value.fieldsDecoded vars

/-- A request, with nothing for a body that is no JSON. -/
structure GraphqlRequest where
  method : String
  input : Option ExecuteGraphQLInput
  header : String → String

/-! ## Depth, complexity and limits -/

mutual

/-- `maxFieldsDepth`. -/
def maxFieldsDepth : List FieldNode → ℤ → ℤ
  | [], currentDepth => currentDepth
  | field :: fields, currentDepth =>
    max (fieldDepth field currentDepth) (maxFieldsDepth fields currentDepth)

/-- The depth below one field. -/
def fieldDepth : FieldNode → ℤ → ℤ
  | .mk _ _ _ [], currentDepth => currentDepth
  | .mk _ _ _ (field :: fields), currentDepth => maxFieldsDepth (field :: fields) (currentDepth + 1)

end

/-- A Go `int` keeps the low 64 bits of a result. -/
def wrapInt (n : ℤ) : ℤ := n.bmod (2 ^ 64)

mutual

/-- The loop of `computeFieldsComplexity`, from a total. -/
def computeFieldsComplexity : List FieldNode → ℤ → ℤ → ℤ
  | [], _, total => total
  | field :: fields, multiplier, total =>
    computeFieldsComplexity fields multiplier (addFieldComplexity field multiplier total)

/-- The total with one field. -/
def addFieldComplexity : FieldNode → ℤ → ℤ → ℤ
  | .mk _ _ _ [], multiplier, total => wrapInt (total + wrapInt (1 * multiplier))
  | .mk _ _ _ (field :: fields), multiplier, total =>
    wrapInt (wrapInt (total + wrapInt (10 * multiplier)) +
      computeFieldsComplexity (field :: fields) (wrapInt (multiplier * 2)) 0)

end

/-- `CalculateDepth`. -/
def calculateDepth (operationNode : OperationNode) : ℤ :=
  maxFieldsDepth operationNode.selectionSet 1

/-- `CalculateComplexity`. -/
def calculateComplexity (operationNode : OperationNode) : ℤ :=
  computeFieldsComplexity operationNode.selectionSet 1 0

/-- `isIntrospectionQuery`. -/
def isIntrospectionQuery (operationNode : OperationNode) : Bool :=
  operationNode.selectionSet.any fun field => field.name = "__schema" || field.name = "__type"

namespace GraphqlConfig

variable (config : GraphqlConfig)

def effectiveDefaultLimit : ℤ :=
  if config.defaultLimit ≤ 0 then config.restDefaultLimit else config.defaultLimit

def effectiveMaxLimit : ℤ := if config.restMaxLimit ≤ 0 then 1000 else config.restMaxLimit

/-- The number that a limit is, zero for what is none. -/
def numericLimit : Value → ℤ
  | .int limit => limit
  | .float limit => limit.toInt64
  | _ => 0

/-- The arguments of a root field with a limit, which is bounded. -/
def limitArguments (args : GoMap Value) : GoMap Value :=
  match args.get "limit" with
  | none =>
    if config.effectiveDefaultLimit > 0 then args.set "limit" (.int config.effectiveDefaultLimit)
    else args
  | some limit =>
    if numericLimit limit > config.effectiveMaxLimit ∧ config.effectiveMaxLimit > 0 then
      args.set "limit" (.int config.effectiveMaxLimit)
    else args

def limitField : FieldNode → FieldNode
  | .mk name aliasName args selectionSet =>
    .mk name aliasName (config.limitArguments args) selectionSet

/-- The loop that enforces the limits. -/
def withLimits (operationNode : OperationNode) : OperationNode :=
  { operationNode with selectionSet := operationNode.selectionSet.map config.limitField }

/-! ## The key -/

/-- `strconv.Atoi` with its error ignored: zero for a text that is no number, and the nearest
number for one that does not fit. -/
def atoi (text : String) : ℤ :=
  let (negative, digits) := Strconv.splitSign text.toList
  match Strconv.decimalValue digits with
  | none => 0
  | some magnitude =>
    let value : ℤ := if negative then -magnitude else magnitude
    max (-2 ^ 63) (min (2 ^ 63 - 1) value)

/-- The time for which a result may be cached. -/
def cacheTTL (request : GraphqlRequest) (operationNode : OperationNode) : ℤ :=
  if operationNode.cacheTTL > 0 then operationNode.cacheTTL
  else if request.header "Cache-TTL" ≠ "" then atoi (request.header "Cache-TTL")
  else if request.header "X-Cache-TTL" ≠ "" then atoi (request.header "X-Cache-TTL")
  else if config.cacheEnabled && decide (config.queryTTLSeconds > 0) then config.queryTTLSeconds
  else 0

end GraphqlConfig

/-- The suffix that replaces the digest in the key: that of the directive, or a header. -/
def keySuffix (request : GraphqlRequest) (operationNode : OperationNode) : String :=
  if operationNode.cacheKeySuffix ≠ "" then operationNode.cacheKeySuffix
  else if request.header "Cache-Key-Suffix" ≠ "" then request.header "Cache-Key-Suffix"
  else request.header "X-Cache-Key-Suffix"

/-- How far a request comes: a failure, the introspection, the execution without the cache, or a
lookup with a key. -/
inductive Handled
  | failed (status : ℕ) (message : String)
  | introspected
  | uncached (operationNode : OperationNode)
  | keyed (operationNode : OperationNode) (internalCacheKey : String)

section

variable (digest : Digest) (format : FloatFormat) (config : GraphqlConfig)
  (tableVersion : OperationNode → ℤ) (authContext : AuthContext)

/-- `internalCacheKey`. -/
def requestKey (request : GraphqlRequest) (input : ExecuteGraphQLInput)
    (operationNode : OperationNode) : String :=
  buildInternalKey authContext
    (buildGraphQLQueryKeyWithVersion digest format input.query input.vars
      (keySuffix request operationNode) (tableVersion operationNode))

/-- The steps behind the limits. -/
def lookUp (request : GraphqlRequest) (input : ExecuteGraphQLInput)
    (operationNode : OperationNode) : Handled :=
  if config.cacheEnabled && decide (config.cacheTTL request operationNode > 0) &&
      decide (operationNode.type = .query) then
    .keyed operationNode
      (requestKey digest format tableVersion authContext request input operationNode)
  else .uncached operationNode

/-- The steps behind the parser. -/
def handleOperation (request : GraphqlRequest) (input : ExecuteGraphQLInput)
    (operationNode : OperationNode) : Handled :=
  let maxDepth := if config.maxDepth ≤ 0 then 8 else config.maxDepth
  let maxComplexity := if config.maxComplexity ≤ 0 then 500 else config.maxComplexity
  let depth := calculateDepth operationNode
  let complexity := calculateComplexity operationNode
  if depth > maxDepth then
    .failed 422 ("Query depth " ++ toString depth ++ " exceeds maximum allowed depth " ++
      toString maxDepth)
  else if complexity > maxComplexity then
    .failed 422 ("Query complexity " ++ toString complexity ++ " exceeds limit of " ++
      toString maxComplexity)
  else if operationNode.type = .query ∧ isIntrospectionQuery operationNode then
    if config.introspectionEnabled then .introspected
    else .failed 403 "GraphQL introspection is disabled"
  else
    lookUp digest format config tableVersion authContext request input
      (config.withLimits operationNode)

/-- `handleExecuteGraphQL`, up to the lookup. -/
def handleExecuteGraphQL (request : GraphqlRequest) : Handled :=
  if request.method ≠ "POST" then
    .failed 405 "GraphQL endpoint only supports POST requests"
  else if config.enabled = false then .failed 403 "GraphQL API is disabled"
  else
    match request.input with
    | none => .failed 400 "Invalid JSON request payload"
    | some input =>
      if Strings.trimSpace input.query = "" then
        .failed 400 "GraphQL query string cannot be empty"
      else
        match parseGraphQLWithOperation input.query input.operationName input.vars with
        | .error _ => .failed 400 "GraphQL syntax error"
        | .ok operationNode =>
          handleOperation digest format config tableVersion authContext request input operationNode

end

end Layr.Cache.Graphql
