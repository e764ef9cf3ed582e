import Layr.Cache.GraphqlHandler
import Layr.Kv.KeyRecords

/-!
# Which requests share a GraphQL cache key

Two requests of one caller that are looked up with the same key should execute the same operation.
Without a custom suffix, the key determines the document up to the blanks around it and the
variables up to the order of their maps. The operation name is not part of the key, and a custom
suffix replaces everything else in it.
-/

namespace Layr.Cache.Graphql

open Go Kv Layr.Graphql

variable {operation operation' : OperationNode}

section

variable (digest : Digest) (format : FloatFormat) (config : GraphqlConfig)
  (tableVersion : OperationNode → ℤ) (authContext : AuthContext)
  (request request' : GraphqlRequest)

/-- Requests of one caller that are looked up with the same key execute the same operation, with
the same limits and arguments, which is all that the compiler is given. -/
def KeySound : Prop :=
  ∀ {operation operation' : OperationNode} {key : String},
    handleExecuteGraphQL digest format config tableVersion authContext request =
      .keyed operation key →
    handleExecuteGraphQL digest format config tableVersion authContext request' =
      .keyed operation' key →
    operation = operation'

/-- The request names no suffix: its headers are empty, and so is the argument of the directive of
the operation that its document holds under its name. Its variables are listed in the order of
their keys, which stands for any order, since a Go map has none. -/
structure Unsuffixed : Prop where
  header : request.header "Cache-Key-Suffix" = "" ∧ request.header "X-Cache-Key-Suffix" = ""
  directive : ∀ input parsed, request.input = some input →
    parseGraphQLWithOperation input.query input.operationName input.vars = .ok parsed →
    parsed.cacheKeySuffix = ""
  ordered : ∀ input, request.input = some input →
    (Value.obj input.vars).canonical = .obj input.vars

/-- The requests name the same operation, and their documents do not differ in the blanks around
them alone. -/
def SameName : Prop :=
  ∀ input input', request.input = some input → request'.input = some input' →
    input.operationName = input'.operationName ∧
      (Strings.trimSpace input.query = Strings.trimSpace input'.query →
        input.query = input'.query)

variable {digest format config tableVersion authContext request request'}

/-! ## What the key determines -/

/-- A request with a key was parsed, and the key is that of its operation. -/
theorem handled_keyed {key : String}
    (h : handleExecuteGraphQL digest format config tableVersion authContext request =
      .keyed operation key) :
    ∃ input parsed, request.input = some input ∧
      parseGraphQLWithOperation input.query input.operationName input.vars = .ok parsed ∧
      operation = config.withLimits parsed ∧
      key = requestKey digest format tableVersion authContext request input operation := by
  unfold handleExecuteGraphQL at h
  split at h
  · cases h
  split at h
  · cases h
  split at h
  · cases h
  rename_i input hinput
  split at h
  · cases h
  split at h
  · cases h
  rename_i parsed hparsed
  unfold handleOperation at h
  dsimp only at h
  generalize (if config.maxDepth ≤ 0 then 8 else config.maxDepth) = maxDepth at h
  generalize (if config.maxComplexity ≤ 0 then 500 else config.maxComplexity) = maxComplexity at h
  split at h
  · cases h
  split at h
  · cases h
  split at h
  · split at h
    · cases h
    · cases h
  unfold lookUp at h
  split at h
  · cases h
    exact ⟨input, parsed, hinput, hparsed, rfl, rfl⟩
  · cases h

/-- Without suffixes, equal keys come from the same document and the same variables. -/
theorem document_eq_of_key_eq {input input' : ExecuteGraphQLInput}
    (hsuffix : keySuffix request operation = "") (hsuffix' : keySuffix request' operation' = "")
    (h : requestKey digest format tableVersion authContext request input operation =
      requestKey digest format tableVersion authContext request' input' operation') :
    Strings.trimSpace input.query = Strings.trimSpace input'.query ∧
      (Value.obj input.vars).canonical = (Value.obj input'.vars).canonical := by
  unfold requestKey buildGraphQLQueryKeyWithVersion at h
  rw [if_neg (by simp [hsuffix]), if_neg (by simp [hsuffix'])] at h
  obtain ⟨hquery, -, hvars⟩ := GraphQLQueryTuple.eq_of_key_eq h
  exact ⟨hquery, Value.canonical_eq_of_toJson_eq format input.decoded input'.decoded hvars⟩

/-- A request that names no suffix is looked up without one. -/
theorem Unsuffixed.keySuffix_eq (hplain : Unsuffixed request) {input : ExecuteGraphQLInput}
    {parsed : OperationNode} (hinput : request.input = some input)
    (hparsed : parseGraphQLWithOperation input.query input.operationName input.vars = .ok parsed) :
    keySuffix request (config.withLimits parsed) = "" := by
  have hdirective : (config.withLimits parsed).cacheKeySuffix = "" :=
    hplain.directive input parsed hinput hparsed
  simp [keySuffix, hdirective, hplain.header]

/-- The key of a lookup. -/
def Handled.key : Handled → Option String
  | .keyed _ key => some key
  | _ => none

/-- The root fields of an operation that is looked up. -/
def Handled.roots : Handled → List String
  | .keyed operationNode _ => operationNode.selectionSet.map FieldNode.name
  | _ => []

/-- Requests with one key and other root fields. -/
theorem not_keySound
    (hsome : (handleExecuteGraphQL digest format config tableVersion authContext
      request).key ≠ none)
    (hkey : (handleExecuteGraphQL digest format config tableVersion authContext request).key =
      (handleExecuteGraphQL digest format config tableVersion authContext request').key)
    (hroots : (handleExecuteGraphQL digest format config tableVersion authContext request).roots ≠
      (handleExecuteGraphQL digest format config tableVersion authContext request').roots) :
    ¬KeySound digest format config tableVersion authContext request request' := by
  intro hsound
  cases h : handleExecuteGraphQL digest format config tableVersion authContext request with
  | keyed =>
    rw [h] at hkey hroots
    cases h' : handleExecuteGraphQL digest format config tableVersion authContext request' with
    | keyed =>
      rw [h'] at hkey hroots
      cases hkey
      cases hsound h h'
      exact hroots rfl
    | failed | introspected | uncached => rw [h'] at hkey; cases hkey
  | failed | introspected | uncached => rw [h] at hsome; exact hsome rfl

end

/-- A configuration that caches queries for a minute. -/
def minuteConfig : GraphqlConfig := ⟨true, 0, 0, true, 0, 0, 0, true, 60⟩

/-- A request for one of two operations of a document. -/
def namedRequest (operationName : String) : GraphqlRequest :=
  ⟨"POST", some ⟨"query A{a{x}} query B{b{x}}", operationName, [], fieldsDecoded_nil⟩, fun _ => ""⟩

/-- A request with one variable and no suffix that is to be cached for some seconds. -/
def plainRequest (seconds : String) : GraphqlRequest :=
  ⟨"POST", some ⟨"{a(x: $v){x}}", "", [("v", .str "w")], rfl⟩,
    fun name => if name = "Cache-TTL" then seconds else ""⟩

/-- A request with a custom suffix. -/
def suffixedRequest (query : String) : GraphqlRequest :=
  ⟨"POST", some ⟨query, "", [], fieldsDecoded_nil⟩,
    fun name => if name = "Cache-Key-Suffix" then "s" else ""⟩

end Layr.Cache.Graphql
