import Layr.Go.JsonValue

/-!
# Cache and key-value keys (`data/kv/kv.go`)

Who a caller is, where a caller's entries live in the store, and the keys under which query
results are cached. SHA-256 enters as a parameter: a function to lower-case hexadecimal texts,
of which it is assumed that it has no collisions.
-/

namespace Layr.Kv

open Go

/-- SHA-256, printed with `%x`. -/
structure Digest where
  hex : String → String
  isHex : ∀ text, ∀ c ∈ (hex text).toList, c.isDigit ∨ ('a' ≤ c ∧ c ≤ 'f')
  injective : Function.Injective hex

/-! ## Callers -/

/-- `DefaultSaltSecret`. -/
def defaultSaltSecret : String := "data-cache-salt"

/-- `AuthContext`. -/
structure AuthContext where
  role : String
  subject : String
  visitorHash : String
deriving DecidableEq, Repr

/-- What `ExtractAuthContext` reads of a request: the claims of its token, the client's address,
its `User-Agent` header and the time in seconds. -/
structure CallerRequest where
  subject : String
  role : String
  clientIP : String
  userAgent : String
  now : ℤ

/-- `fmt.Sprintf("%d", n)`. -/
def decimal (n : ℤ) : String := String.ofList (Strconv.formatInt n)

/-- `ComputeVisitorHash`. -/
def computeVisitorHash (digest : Digest) (clientIP userAgent : String) (now : ℤ)
    (saltSecret : String) : String :=
  let saltSecret := if saltSecret = "" then defaultSaltSecret else saltSecret
  let bucket := now.tdiv (24 * 3600)
  digest.hex (clientIP ++ ":" ++ saltSecret ++ ":" ++ userAgent ++ ":" ++ decimal bucket)

/-- `ExtractAuthContext`. -/
def extractAuthContext (digest : Digest) (request : CallerRequest) (saltSecret : String) :
    AuthContext :=
  if request.subject ≠ "" ∨ (request.role ≠ "" ∧ request.role ≠ "anon") then
    { role := request.role, subject := request.subject, visitorHash := "" }
  else
    { role := if request.role = "" then "anon" else request.role
      subject := ""
      visitorHash :=
        computeVisitorHash digest request.clientIP request.userAgent request.now saltSecret }

/-- Keys of cached query results. -/
def isCacheKey (userVisibleKey : String) : Bool :=
  Strings.hasPrefix userVisibleKey "rest:" || Strings.hasPrefix userVisibleKey "graphql:"

/-- `BuildInternalKey`. -/
def buildInternalKey (authContext : AuthContext) (userVisibleKey : String) : String :=
  let isCache := isCacheKey userVisibleKey
  if authContext.role ≠ "anon" ∧ authContext.visitorHash = "" then
    let role := if authContext.role = "" then "authenticated" else authContext.role
    if authContext.subject ≠ "" then
      if isCache then "cache:" ++ role ++ ":" ++ authContext.subject ++ ":" ++ userVisibleKey
      else role ++ ":" ++ authContext.subject ++ ":" ++ userVisibleKey
    else if isCache then "cache:" ++ role ++ "::" ++ userVisibleKey
    else role ++ "::" ++ userVisibleKey
  else
    let role := if authContext.role = "" then "anon" else authContext.role
    if isCache then "cache:" ++ role ++ ":" ++ authContext.visitorHash ++ ":" ++ userVisibleKey
    else role ++ ":" ++ authContext.visitorHash ++ ":" ++ userVisibleKey

/-! ## Query keys -/

/-- `RESTQueryTuple`. -/
structure RESTQueryTuple where
  schema : String
  table : String
  tableVersion : ℤ
  select : String
  filters : String
  order : String
  limit : ℤ
  offset : ℤ
  countExact : Bool
deriving DecidableEq, Repr

/-- A member that `omitempty` leaves out when it is zero. -/
def nonzeroMember (name : String) (n : ℤ) : List (String × Json) :=
  if n = 0 then [] else [(name, .num (.ofInt n))]

/-- The tuple as `json.Marshal` writes it. -/
def RESTQueryTuple.toJson (tuple : RESTQueryTuple) : Json :=
  .obj ([("schema", .str tuple.schema), ("table", .str tuple.table)] ++
    nonzeroMember "table_version" tuple.tableVersion ++
    [("select", .str tuple.select), ("filters", .str tuple.filters), ("order", .str tuple.order),
      ("limit", .num (.ofInt tuple.limit)), ("offset", .num (.ofInt tuple.offset)),
      ("count_exact", .bool tuple.countExact)])

/-- `BuildRESTQueryKeyWithVersion`. -/
def buildRESTQueryKeyWithVersion (digest : Digest) (schema table : String) (tableVersion : ℤ)
    (fields embeddedStrings filterStrings orderStrings : List String) (limit offset : ℤ)
    (countExact : Bool) (customSuffix : String) : String :=
  if customSuffix ≠ "" then "rest:" ++ customSuffix
  else
    let fieldParts :=
      if fields.length > 0 then [Strings.join "," (Strings.sort fields)] else []
    let selectParts := Strings.sort (fieldParts ++ embeddedStrings)
    let tuple : RESTQueryTuple :=
      { schema, table, tableVersion
        select := Strings.join ";" selectParts
        filters := Strings.join "&" (Strings.sort filterStrings)
        order := Strings.join "," orderStrings
        limit, offset, countExact }
    "rest:" ++ digest.hex tuple.toJson.text

/-- `GraphQLQueryTuple`. -/
structure GraphQLQueryTuple where
  query : String
  vars : GoMap Value
  tableVersion : ℤ

/-- The tuple as `json.Marshal` writes it. -/
def GraphQLQueryTuple.toJson (format : FloatFormat) (tuple : GraphQLQueryTuple) : Json :=
  .obj ([("query", .str tuple.query)] ++
    (if tuple.vars = [] then [] else [("variables", Value.toJson format (.obj tuple.vars))]) ++
    nonzeroMember "table_version" tuple.tableVersion)

/-- `BuildGraphQLQueryKeyWithVersion`. -/
def buildGraphQLQueryKeyWithVersion (digest : Digest) (format : FloatFormat) (query : String)
    (vars : GoMap Value) (customSuffix : String) (tableVersion : ℤ) : String :=
  if customSuffix ≠ "" then "graphql:" ++ customSuffix
  else
    let tuple : GraphQLQueryTuple := { query := Strings.trimSpace query, vars, tableVersion }
    "graphql:" ++ digest.hex (tuple.toJson format).text

end Layr.Kv
