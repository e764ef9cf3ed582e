import Layr.Cache.Versions
import Layr.Lib.Runs

/-!
# Clients of one table through GraphQL and REST (`data/base_handler_graphql.go`)

A read asks for the table's version, looks the cache up, runs its query on the committed state and
stores the result; a mutation begins a transaction, runs its statement, increments the version and
commits. REST writes commit and then increment, while `handleExecuteGraphQL` increments, writes the
response and leaves the commit to a deferred call whose error it drops. Each step of a client is
one access to the database or the store.

A result is the list of mutations it shows. The history is the version that each mutation got from
its last increment (`invalidated`), the mutations answered with success (`returned`), and the
`answers` of the reads.
-/

namespace Layr.Cache.Graphql

open Go Kv

/-- A GraphQL query on the table: what its cache key is made of, its effective `cacheTTL` and
`keySuffix`, and how many of its fields beyond the first refer to the table. -/
structure ReadRequest where
  authContext : AuthContext
  query : String
  vars : GoMap Value
  keySuffix : String
  cacheTTL : ℤ
  moreReferences : ℕ

/-- The interface a mutation comes through. A GraphQL mutation increments the version once for
each of its fields on the table. -/
inductive Api
  | graphql (moreFields : ℕ)
  | rest
deriving DecidableEq, Repr

structure Mutation where
  id : ℕ
  api : Api
deriving DecidableEq, Repr

/-- A cached result, with the versions under which its query ran. -/
structure Entry where
  versions : List ℤ
  snapshot : List ℕ
deriving DecidableEq, Repr

/-- The answer of a read: the mutations that had returned when it started, those its result
shows, and whether the result came from the cache. -/
structure Answer where
  seen : List ℕ
  snapshot : List ℕ
  cached : Bool
deriving DecidableEq, Repr

/-- Where a client is. -/
inductive Client
  | idle
  /-- reading the version, once for each reference -/
  | reading (request : ReadRequest) (seen : List ℕ) (versions : List ℤ)
  /-- about to look the cache up -/
  | versioned (request : ReadRequest) (seen : List ℕ) (versions : List ℤ)
  /-- about to run the query -/
  | missed (request : ReadRequest) (seen : List ℕ) (versions : List ℤ)
  /-- about to store the result and answer -/
  | queried (request : ReadRequest) (seen : List ℕ) (versions : List ℤ) (snapshot : List ℕ)
  /-- in a transaction, before the statement -/
  | begun (mutation : Mutation)
  /-- a REST write behind its statement -/
  | written (mutation : Mutation)
  /-- with a number of increments to make -/
  | invalidating (mutation : Mutation) (remaining : ℕ)
  /-- about to set the version back after an increment that reached `maxSafeVersion` -/
  | resetting (mutation : Mutation) (remaining : ℕ)
  /-- behind the last increment, with the commit or the response still to come -/
  | finishing (mutation : Mutation) (last : ℤ) (uncommitted unanswered : Bool)

structure State where
  committed : List ℕ
  version : ℤ
  cache : GoMap Entry
  queryCount : ℤ
  nextMutation : ℕ
  clients : List Client
  invalidated : List (ℕ × ℤ)
  returned : List ℕ
  answers : List Answer

/-- The start: an empty store and idle clients. -/
def initial (clients : ℕ) : State where
  committed := []
  version := 0
  cache := []
  queryCount := 0
  nextMutation := 0
  clients := List.replicate clients .idle
  invalidated := []
  returned := []
  answers := []

/-- The steps of a client. -/
inductive Action
  | startRead (request : ReadRequest)
  | readVersion
  | lookUp
  | runQuery
  | store
  | begin (api : Api)
  | write (succeeds : Bool)
  | bump
  | reset
  | commit (succeeds : Bool)
  | respond

/-- One client takes one step. -/
structure Label where
  client : ℕ
  action : Action

def State.setClient (s : State) (i : ℕ) (client : Client) : State :=
  { s with clients := s.clients.set i client }

section

variable (digest : Digest) (format : FloatFormat) (config : CacheConfig)
  (reference : GraphQLTableRef)

/-- `isCacheActive && cacheTTL > 0`. -/
def isCached (request : ReadRequest) : Bool := config.enabled && decide (request.cacheTTL > 0)

/-- `internalCacheKey`. -/
def internalCacheKey (request : ReadRequest) (versions : List ℤ) : String :=
  buildInternalKey request.authContext
    (buildGraphQLQueryKeyWithVersion digest format request.query request.vars request.keySuffix
      (getGraphQLTableCacheVersion (versions.map fun version => (reference, version))))

/-- `shouldCache`: the number of cached queries is below the limit. -/
def shouldCache (s : State) : Bool :=
  !(decide (config.maxCachedQueries > 0) && decide (s.queryCount ≥ config.maxCachedQueries))

/-- Behind an increment: the next field of the mutation, or its end. -/
def advance (s : State) (i : ℕ) (mutation : Mutation) (remaining : ℕ) : State :=
  match remaining with
  | 0 =>
    { s with
      invalidated := (mutation.id, s.version) :: s.invalidated
      clients := s.clients.set i (.finishing mutation s.version (mutation.api != .rest) true) }
  | remaining + 1 => s.setClient i (.invalidating mutation (remaining + 1))

/-- The KV access of `InvalidateTableCache`. -/
def invalidate (s : State) (i : ℕ) (mutation : Mutation) (remaining : ℕ) : State :=
  if !config.enabled || !config.invalidateOnMutation then advance s i mutation remaining
  else
    let s := { s with version := s.version + 1 }
    if s.version ≥ maxSafeVersion then s.setClient i (.resetting mutation remaining)
    else advance s i mutation remaining

/-- Storing a result and answering with it. -/
def storeResult (s : State) (i : ℕ) (request : ReadRequest) (seen : List ℕ) (versions : List ℤ)
    (snapshot : List ℕ) : State :=
  let answered := { s with
    answers := ⟨seen, snapshot, false⟩ :: s.answers
    clients := s.clients.set i .idle }
  if isCached config request && shouldCache config s then
    { answered with
      cache := s.cache.set (internalCacheKey digest format reference request versions)
        ⟨versions, snapshot⟩
      queryCount := s.queryCount + 1 }
  else answered

/-- One step of the system. -/
def step (s : State) (label : Label) : Option State :=
  let i := label.client
  match label.action, s.clients[i]? with
  | .startRead request, some .idle =>
    some (s.setClient i (if isCached config request then .reading request s.returned []
      else .missed request s.returned []))
  | .readVersion, some (.reading request seen versions) =>
    let versions := versions ++ [s.version]
    some (s.setClient i (if versions.length = request.moreReferences + 1
      then .versioned request seen versions else .reading request seen versions))
  | .lookUp, some (.versioned request seen versions) =>
    match s.cache.get (internalCacheKey digest format reference request versions) with
    | some entry =>
      some { s with
        answers := ⟨seen, entry.snapshot, true⟩ :: s.answers
        clients := s.clients.set i .idle }
    | none => some (s.setClient i (.missed request seen versions))
  | .runQuery, some (.missed request seen versions) =>
    some (s.setClient i (.queried request seen versions s.committed))
  | .store, some (.queried request seen versions snapshot) =>
    some (storeResult digest format config reference s i request seen versions snapshot)
  | .begin api, some .idle =>
    some { s with
      nextMutation := s.nextMutation + 1
      clients := s.clients.set i (.begun ⟨s.nextMutation, api⟩) }
  | .write succeeds, some (.begun mutation) =>
    some (s.setClient i (if succeeds then
      match mutation.api with
      | .graphql moreFields => .invalidating mutation (moreFields + 1)
      | .rest => .written mutation
    else .idle))
  | .bump, some (.invalidating mutation (remaining + 1)) =>
    some (invalidate config s i mutation remaining)
  | .reset, some (.resetting mutation remaining) =>
    some (advance { s with version := 1 } i mutation remaining)
  | .commit succeeds, some (.written mutation) =>
    some (if succeeds then
      { s with
        committed := mutation.id :: s.committed
        clients := s.clients.set i (.invalidating mutation 1) }
    else s.setClient i .idle)
  | .commit succeeds, some (.finishing mutation last true unanswered) =>
    let s := if succeeds then { s with committed := mutation.id :: s.committed } else s
    some (s.setClient i (if unanswered then .finishing mutation last false true else .idle))
  | .respond, some (.finishing mutation last uncommitted true) =>
    some { s with
      returned := mutation.id :: s.returned
      clients := s.clients.set i (if uncommitted then .finishing mutation last true false
        else .idle) }
  | _, _ => none

end

/-- No read was answered from the cache with a result that lacks a mutation which had returned
before the read started. -/
def Fresh (s : State) : Prop :=
  ∀ answer ∈ s.answers, answer.cached → ∀ mutation ∈ answer.seen,
    mutation ∈ answer.snapshot

end Layr.Cache.Graphql
