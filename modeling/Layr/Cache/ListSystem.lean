import Layr.Cache.Versions
import Layr.Kv.Database
import Layr.Lib.Runs
import Layr.Rest.Cache

/-!
# List requests and writes over time (`data/base_handler_rest.go`, `data/service.go`)

List requests and writes of any tables follow each other, with any time between them. Results and
versions live in the database driver's table: an increment gives a version the driver's default
expiry, and a version that has expired reads as zero.

The history is `writes`, the completed writes, `stored`, what was known of each cached result when
it was stored, and `answers`.
-/

namespace Layr.Cache.Listing

open Go Kv Rest

/-- The settings that list requests and writes read. -/
structure Config extends CacheConfig where
  queryTTLSeconds : ℤ
  restEnabled : Bool
  defaultLimit : ℤ
  maxLimit : ℤ
  schemas : List String
  excludedTables : List String

/-- A table by its schema and name. -/
@[ext]
structure TableName where
  schema : String
  table : String
deriving DecidableEq, Repr

/-- A list request: its path, its caller, the values of its URL and its headers. -/
structure ListRequest where
  name : TableName
  authContext : AuthContext
  urlValues : GoMap (List String)
  headers : GoMap String

/-! ## Versions in the store -/

/-- The key of a table's version. -/
def versionKey (name : TableName) : String := "cache:v:" ++ name.schema ++ ":" ++ name.table

/-- `getTableCacheVersion`. -/
def getTableCacheVersion (now : ℤ) (table : Database.Table) (name : TableName) : ℤ :=
  match Database.get now table (versionKey name) with
  | .ok versionString => (Strconv.parseInt versionString.toList).getD 0
  | .error _ => 0

/-- `InvalidateTableCache`. -/
def invalidateTableCache (config : CacheConfig) (now : ℤ) (table : Database.Table)
    (name : TableName) : Database.Table :=
  if !config.enabled || !config.invalidateOnMutation then table
  else
    let (newVersion, table) := Database.increment now table (versionKey name) 0
    match newVersion with
    | .ok newVersion =>
      if newVersion ≥ maxSafeVersion then (Database.set now table (versionKey name) "1" 0).2
      else table
    | .error _ => (Database.set now table (versionKey name) "1" 0).2

/-! ## List requests -/

/-- `isSchemaAllowed`, `ExcludedTables` and the other checks of `prepareTableContext`. -/
def isExposed (config : Config) (name : TableName) : Bool :=
  config.restEnabled && isValidIdentifier name.schema && isValidIdentifier name.table &&
    config.schemas.contains name.schema &&
    !config.excludedTables.any fun excluded =>
      excluded = name.table || excluded = name.schema ++ "." ++ name.table

/-- `request.URL.Query().Get`. -/
def ListRequest.query (request : ListRequest) (key : String) : String :=
  ((request.urlValues.get key).bind List.head?).getD ""

/-- `request.Header.Get`. -/
def ListRequest.header (request : ListRequest) (key : String) : String :=
  (request.headers.get key).getD ""

/-- A time to live as a client gives it. -/
def parseTTL (raw : String) : ℤ :=
  match Strconv.parseInt raw.toList with
  | some parsedTTL => if parsedTTL > 0 then parsedTTL else 0
  | none => 0

/-- `cacheTTL`, in seconds. -/
def cacheTTL (config : Config) (request : ListRequest) : ℤ :=
  if request.query "cache_ttl" ≠ "" then parseTTL (request.query "cache_ttl")
  else if request.header "Cache-TTL" ≠ "" then parseTTL (request.header "Cache-TTL")
  else if request.header "X-Cache-TTL" ≠ "" then parseTTL (request.header "X-Cache-TTL")
  else if config.enabled ∧ config.queryTTLSeconds > 0 then config.queryTTLSeconds
  else 0

/-- `keySuffix`: the first of its four sources that is not empty. -/
def keySuffix (request : ListRequest) : String :=
  ([request.query "cache_key_suffix", request.query "cache_key",
    request.header "Cache-Key-Suffix", request.header "X-Cache-Key-Suffix"].find?
      (· ≠ "")).getD ""

/-- `time.Duration(seconds) * time.Second` on 64 bits. -/
def seconds (n : ℤ) : ℤ := (n * 1000000000).bmod (2 ^ 64)

/-- `counterExpiry`. -/
def counterExpiry (config : Config) : ℤ :=
  max (seconds ((config.queryTTLSeconds * 2).bmod (2 ^ 64))) (5 * 60 * 1000000000)

mutual

/-- The relation of an embedded field and those of its children. -/
def embeddedRelations : EmbeddedField → List String
  | .mk relation _ children => relation :: collectEmbeddedRelations children

/-- `collectEmbeddedRelations`. -/
def collectEmbeddedRelations : List EmbeddedField → List String
  | [] => []
  | embedded :: rest => embeddedRelations embedded ++ collectEmbeddedRelations rest

end

/-- What is known of a cached result: its table, the number of the table's writes that had
completed when it was stored, and the versions of the table and its relations that its key was
made with. -/
structure Entry where
  name : TableName
  writes : ℕ
  rootVersion : ℤ
  relations : List (String × ℤ)
deriving DecidableEq, Repr

/-- The answer of a list request: its table, the number of the table's writes that had completed
when it began, and the same number for the cached result, if that was the answer. -/
structure Answer where
  name : TableName
  writes : ℕ
  cached : Option ℕ
deriving DecidableEq, Repr

structure State where
  now : ℤ
  table : Database.Table
  writes : List TableName
  stored : GoMap Entry
  answers : List Answer

/-- The start: an empty store. -/
def initial : State where
  now := 0
  table := []
  writes := []
  stored := []
  answers := []

/-- The number of completed writes of a table. -/
def State.writesOf (s : State) (name : TableName) : ℕ := s.writes.count name

/-- The version of a table. -/
def State.version (s : State) (name : TableName) : ℤ := getTableCacheVersion s.now s.table name

/-- The steps: a list request with the response its query gives unless it fails, a write, time
that passes, in microseconds, and the driver's removal of expired rows. -/
inductive Label
  | list (request : ListRequest) (response : Option String)
  | write (name : TableName) (succeeds : Bool)
  | wait (microseconds : ℕ)
  | sweep

/-- What becomes of a list request before its query. -/
inductive Lookup
  /-- rejected with an error -/
  | rejected
  /-- answered by its query alone -/
  | uncached
  /-- answered with what is stored under the key -/
  | hit (key : String) (stored entry : Entry)
  /-- answered by its query, whose result is stored under the key -/
  | miss (key : String) (entry : Entry)
deriving DecidableEq, Repr

section

variable (digest : Digest) (config : Config)

/-- The entry that a request makes if its result is stored now. -/
def newEntry (s : State) (request : ListRequest) (queryParams : QueryParams) : Entry where
  name := request.name
  writes := s.writesOf request.name
  rootVersion := s.version request.name
  relations := (collectEmbeddedRelations queryParams.embedded).map fun relation =>
    (relation, s.version ⟨request.name.schema, relation⟩)

/-- `tableVersion`. -/
def tableVersion (entry : Entry) : ℤ :=
  getCompositeTableCacheVersion entry.name.schema entry.name.table entry.rootVersion
    entry.relations

/-- `internalCacheKey`. -/
def internalCacheKey (request : ListRequest) (queryParams : QueryParams) (entry : Entry) : String :=
  buildInternalKey request.authContext
    (generateUserVisibleRESTKeyWithVersion digest request.name.schema request.name.table
      queryParams (keySuffix request) (tableVersion entry))

/-- The part of `handleListRecords` in front of its query. -/
def lookUp (s : State) (request : ListRequest) : Lookup :=
  if !isExposed config request.name then .rejected
  else
    match parseQueryParams request.urlValues config.defaultLimit config.maxLimit with
    | .error _ => .rejected
    | .ok queryParams =>
      if cacheTTL config request ≤ 0 then .uncached
      else
        let entry := newEntry s request queryParams
        let key := internalCacheKey digest request queryParams entry
        match Database.get s.now s.table key with
        | .ok cached =>
          if cached ≠ "" then .hit key ((s.stored.get key).getD entry) entry else .miss key entry
        | .error _ => .miss key entry

/-- `shouldCache`: the number of cached queries is below the limit. -/
def shouldCache (s : State) : Bool :=
  !(decide (config.maxCachedQueries > 0) &&
    match Database.get s.now s.table "cache:query_count" with
    | .ok text => (Strconv.parseInt text.toList).any (· ≥ config.maxCachedQueries)
    | .error _ => false)

/-- Storing a result and counting it. -/
def store (s : State) (request : ListRequest) (key : String) (entry : Entry) (response : String) :
    State :=
  let (result, table) :=
    Database.set s.now s.table key response (seconds (cacheTTL config request))
  { s with
    table := (Database.increment s.now table "cache:query_count" (counterExpiry config)).2
    stored := if result.isOk then s.stored.set key entry else s.stored }

/-- Recording an answer. -/
def State.answer (s : State) (name : TableName) (writes : ℕ) (cached : Option ℕ) : State :=
  { s with answers := ⟨name, writes, cached⟩ :: s.answers }

/-- `handleListRecords`. -/
def handleListRecords (s : State) (request : ListRequest) (response : Option String) : State :=
  let writes := s.writesOf request.name
  match lookUp digest config s request, response with
  | .rejected, _ => s
  | .hit _ stored _, _ => s.answer request.name writes (some stored.writes)
  | .uncached, some _ => s.answer request.name writes none
  | .miss key entry, some response =>
    if shouldCache config s then
      (store config s request key entry response).answer request.name writes none
    else s.answer request.name writes none
  | _, none => s

/-- A write: the transaction commits, then the version is incremented. -/
def handleWrite (s : State) (name : TableName) (succeeds : Bool) : State :=
  if isExposed config name && succeeds then
    { s with
      table := invalidateTableCache config.toCacheConfig s.now s.table name
      writes := name :: s.writes }
  else s

/-- One step of the system. -/
def step (s : State) : Label → Option State
  | .list request response => some (handleListRecords digest config s request response)
  | .write name succeeds => some (handleWrite config s name succeeds)
  | .wait microseconds => some { s with now := s.now + microseconds }
  | .sweep => some { s with table := Database.sweep s.now s.table }

end

/-- No list request was answered with a cached result that was stored before a write of its table
which had completed when the request began. -/
def Fresh (s : State) : Prop :=
  ∀ answer ∈ s.answers, ∀ stored, answer.cached = some stored → answer.writes ≤ stored

/-- One schema, with results that live for a day. -/
def dayConfig : Config where
  enabled := true
  invalidateOnMutation := true
  maxCachedQueries := 0
  queryTTLSeconds := 86400
  restEnabled := true
  defaultLimit := 20
  maxLimit := 100
  schemas := ["s"]
  excludedTables := []

end Layr.Cache.Listing
