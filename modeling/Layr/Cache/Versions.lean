import Layr.Go.Fnv
import Layr.Kv.Keys

/-!
# Table cache versions

From `data/service.go`, `data/base_handler_graphql.go` and `data/base_handler_rest.go`.

Each table has a version number in the key-value store, which every mutation of the table
increments. A query on one table is cached under the table's version, a query on several under a
64-bit hash of all of them.
-/

namespace Layr.Cache

open Go

/-- `cacheConfig`, the settings the query cache reads. -/
structure CacheConfig where
  enabled : Bool
  invalidateOnMutation : Bool
  maxCachedQueries : ℤ
deriving DecidableEq, Repr

/-- `maxSafeVersion` of `InvalidateTableCache`. -/
def maxSafeVersion : ℤ := 9000000000000000

/-- `graphQLTableRef`. -/
structure GraphQLTableRef where
  schema : String
  table : String
deriving DecidableEq, Repr

/-- `int64(fnvHash64.Sum64() & uint64(math.MaxInt64))`. -/
def maskedSum (text : String) : ℤ := (Fnv.sum64a text).toNat % 2 ^ 63

/-- `getGraphQLTableCacheVersion`, given the version read for each reference. -/
def getGraphQLTableCacheVersion : List (GraphQLTableRef × ℤ) → ℤ
  | [] => 0
  | [(_, version)] => version
  | references =>
    maskedSum (String.join (references.map fun (reference, version) =>
      reference.schema ++ "." ++ reference.table ++ ":" ++ Kv.decimal version ++ ";"))

/-- `getCompositeTableCacheVersion`, given the version read for the root table and for each
embedded relation. -/
def getCompositeTableCacheVersion (schema rootTable : String) (rootVersion : ℤ) :
    List (String × ℤ) → ℤ
  | [] => rootVersion
  | relations =>
    maskedSum (schema ++ ":" ++ rootTable ++ ":" ++ Kv.decimal rootVersion ++
      String.join (relations.map fun (relation, version) =>
        ";" ++ relation ++ ":" ++ Kv.decimal version))

end Layr.Cache
