import Layr.Cache.ListSystem
import Layr.Rest.Builder
import Layr.Rest.CacheRecords

/-!
# Cache keys of list requests and the statements they run

Requests with the same key should run the same statement. The key does not record everything the
statement is built from: requests whose keys agree can differ in the order of their columns and in
their conditions. Parameters that leave no such choice are `Plain`, and on them the key is sound.
All texts are sequences of runes; of bytes that are no valid UTF-8 the key records even less.
-/

namespace Layr.Cache.Listing

open Go Kv Rest

/-- The statement of a list request, given the metadata of the tables. -/
def selectOf (catalog : TableName → TableMetadata) (request : ListRequest)
    (queryParams : QueryParams) : Except BuildError Select :=
  buildSelect (newQueryBuilder request.name.schema request.name.table) queryParams
    (catalog request.name)

/-- The columns of a list request. -/
def columnsOf (catalog : TableName → TableMetadata) (request : ListRequest)
    (queryParams : QueryParams) : List String :=
  selectColumns (newQueryBuilder request.name.schema request.name.table) (catalog request.name)
    queryParams

/-- Statements that differ in the order of their conjuncts at most. -/
def SameStatement (result result' : Except BuildError Select) : Prop :=
  ∃ select select', result = .ok select ∧ result' = .ok select' ∧
    select.clauses.Perm select'.clauses ∧ { select with clauses := [] } =
      { select' with clauses := [] }

/-- Accepted parameters have a statement. -/
theorem selectOf_eq (catalog : TableName → TableMetadata) (request : ListRequest)
    {queryParams : QueryParams} (haccepted : queryParams.Accepted) :
    selectOf catalog request queryParams =
      .ok { columns := columnsOf catalog request queryParams
            schema := (newQueryBuilder request.name.schema request.name.table).schema
            table := request.name.table
            clauses := queryParams.filters.map buildClause
            orders := queryParams.orders
            limit := queryParams.limit
            offset := queryParams.offset } := by
  unfold selectOf buildSelect
  rw [buildWhere_of_accepted fun filterOp hmem => (haccepted.filters filterOp hmem).column]
  rfl

theorem buildInternalKey_rest_inj (authContext : AuthContext) {text text' : String} :
    buildInternalKey authContext ("rest:" ++ text) =
      buildInternalKey authContext ("rest:" ++ text') ↔ "rest:" ++ text = "rest:" ++ text' := by
  rw [buildInternalKey_eq, buildInternalKey_eq, if_pos (isCacheKey_rest text),
    if_pos (isCacheKey_rest text')]
  exact String.append_right_inj _

/-- The internal keys of two requests of one caller agree exactly when what they record does. -/
theorem internalCacheKey_eq_iff (digest : Digest) (s : State) {request request' : ListRequest}
    {queryParams queryParams' : QueryParams} (hcaller : request.authContext = request'.authContext)
    (hsuffix : keySuffix request = "") (hsuffix' : keySuffix request' = "")
    (haccepted : queryParams.Accepted) (haccepted' : queryParams'.Accepted) :
    internalCacheKey digest request queryParams (newEntry s request queryParams) =
        internalCacheKey digest request' queryParams' (newEntry s request' queryParams') ↔
      SameRecord request.name.schema request.name.table request'.name.schema request'.name.table
        (tableVersion (newEntry s request queryParams))
        (tableVersion (newEntry s request' queryParams')) queryParams queryParams' := by
  unfold internalCacheKey
  rw [hcaller, hsuffix, hsuffix', ← sameKey_iff_sameRecord digest _ _ _ _ _ _ haccepted haccepted',
    generateUserVisibleRESTKeyWithVersion_eq, generateUserVisibleRESTKeyWithVersion_eq]
  exact buildInternalKey_rest_inj _

/-- Parameters whose texts in the key say all: fields and relations are given in the order in which
the key lists them, and the filters are plain. -/
structure Plain (language : String) (queryParams : QueryParams) : Prop where
  fields : queryParams.fields.Pairwise (· ≤ ·)
  embedded : queryParams.embedded.Pairwise fun a b => formatEmbeddedField a ≤ formatEmbeddedField b
  filters : ∀ filterOp ∈ queryParams.filters, filterOp.Plain language

/-- Lists that the key records up to their order are the same where they are given in order. -/
theorem Plain.eq_of_perm {language : String} {queryParams queryParams' : QueryParams}
    (hplain : Plain language queryParams) (hplain' : Plain language queryParams')
    (haccepted : queryParams.Accepted) (haccepted' : queryParams'.Accepted)
    (hfields : queryParams.fields.Perm queryParams'.fields)
    (hembedded : queryParams.embedded.Perm queryParams'.embedded) :
    queryParams.fields = queryParams'.fields ∧ queryParams.embedded = queryParams'.embedded := by
  constructor
  · exact hfields.eq_of_pairwise (fun _ _ _ _ => le_antisymm) hplain.fields hplain'.fields
  · refine hembedded.eq_of_pairwise (fun a b ha hb hab hba => ?_) hplain.embedded hplain'.embedded
    exact formatEmbeddedField_injOn (isAccepted_of_mem haccepted.embedded ha)
      (isAccepted_of_mem haccepted'.embedded hb) (le_antisymm hab hba)

/-- A list of the table `s.t` with the given parameters. -/
def listOf (urlValues : GoMap (List String)) : ListRequest where
  name := ⟨"s", "t"⟩
  authContext := ⟨"u", "a", ""⟩
  urlValues := urlValues
  headers := []

/-- Parameters with filters only. -/
def filtersOnly (filters : List FilterOp) : QueryParams where
  fields := []
  embedded := []
  filters := filters
  orders := []
  limit := 20
  offset := 0
  countExact := false
  onConflict := ""

def equals (column value : String) (negated : Bool) : FilterOp :=
  ⟨column, .eq, value, "", [], negated⟩

/-- No relation is known by name. -/
def plainCatalog : TableName → TableMetadata := fun _ => ⟨"id", []⟩

def abRequest : ListRequest := listOf [("a", ["eq.x"]), ("b", ["eq.y"])]

def baRequest : ListRequest := listOf [("b", ["eq.y"]), ("a", ["eq.x"])]

def abParams : QueryParams := filtersOnly [equals "a" "x" false, equals "b" "y" false]

def baParams : QueryParams := filtersOnly [equals "b" "y" false, equals "a" "x" false]

def eqRequest : ListRequest := listOf [("a", ["eq.x"])]

def notEqRequest : ListRequest := listOf [("a", ["not.eq.x"])]

end Layr.Cache.Listing
