import Layr.Cache.ListFreshness

/-!
# Reads that fail under way (`data/base_handler_rest.go`)

`pgx` hands out the rows of a query one by one, and tells only through `rows.Err` that it stopped
because the connection was lost or the statement failed at run time. `scanRowsToJSONMaps` returns
the rows alone, so `handleListRecords` takes what it got so far for the result.
-/

namespace Layr.Cache.Listing

open Go Kv Rest

/-- The rows of a started query: those that `Next` reaches, and what `Err` tells behind them. -/
structure Rows where
  reached : List Json
  err : Option String

/-- `scanRowsToJSONMaps`. -/
def scanRowsToJSONMaps (rows : Rows) : List Json := rows.reached

/-- What `tx.Query` gives. -/
inductive QueryResult
  | failed (message : String)
  | started (rows : Rows)

/-- `responseJSON`, unless the query has failed at once. -/
def responseJSON : QueryResult → Option String
  | .failed _ => none
  | .started rows => some (Json.arr (scanRowsToJSONMaps rows)).text

variable (digest : Digest) (config : Config) (s : State) (request : ListRequest)

/-- The request comes to its query. -/
def startsQuery : Bool :=
  match lookUp digest config s request with
  | .uncached | .miss _ _ => true
  | _ => false

/-- The rows are neither answered with nor stored. -/
def Withheld (result : QueryResult) : Prop :=
  let s' := handleListRecords digest config s request (responseJSON result)
  s'.answers = s.answers ∧ s'.table = s.table

variable {digest config s request}

theorem answers_of_startsQuery (response : String)
    (hstarts : startsQuery digest config s request) :
    (handleListRecords digest config s request (some response)).answers =
      ⟨request.name, s.writesOf request.name, none⟩ :: s.answers := by
  unfold startsQuery at hstarts
  unfold handleListRecords
  split at hstarts
  · rename_i hlookup
    simp only [hlookup]
    rfl
  · rename_i hlookup
    simp only [hlookup]
    split <;> rfl
  · cases hstarts

/-- Every read that fails behind the start of its query, wherever it does, is answered with the
rows reached so far; on a miss below the limit of cached queries they are stored under the key of
the request; and both happen as with a complete result of these rows. -/
theorem failed_read_reported (digest : Digest) (config : Config) (s : State)
    (request : ListRequest) (reached : List Json) (err : String)
    (hstarts : startsQuery digest config s request) :
    ¬Withheld digest config s request (.started ⟨reached, some err⟩) ∧
    let s' := handleListRecords digest config s request
      (responseJSON (.started ⟨reached, some err⟩))
    s'.answers = ⟨request.name, s.writesOf request.name, none⟩ :: s.answers ∧
    (∀ key entry, lookUp digest config s request = .miss key entry → shouldCache config s →
      s'.table = (store config s request key entry (Json.arr reached).text).table) ∧
    s' = handleListRecords digest config s request (responseJSON (.started ⟨reached, none⟩)) := by
  have hanswers := answers_of_startsQuery (Json.arr reached).text hstarts
  refine ⟨?_, hanswers, ?_, rfl⟩
  · rintro ⟨hsame, -⟩
    exact List.cons_ne_self _ _ (hanswers.symm.trans hsame)
  · intro key entry hmiss hcache
    simp only [handleListRecords, hmiss, responseJSON, hcache]
    rfl

/-- The table `s.t` has been written once. -/
def writtenState : State := handleWrite dayConfig initial ⟨"s", "t"⟩ true

/-- The connection is lost behind the first row of a list. -/
def brokenState : State :=
  handleListRecords plainDigest dayConfig writtenState plainList
    (responseJSON (.started ⟨[.str "first"], some "unexpected EOF"⟩))

theorem startsQuery_writtenState :
    startsQuery plainDigest dayConfig writtenState plainList := by
  decide +kernel

theorem brokenState_answered : brokenState.answers = [⟨⟨"s", "t"⟩, 1, none⟩] :=
  (failed_read_reported plainDigest dayConfig writtenState plainList [.str "first"]
    "unexpected EOF" startsQuery_writtenState).2.1

/-- The body of an answer from the cache. -/
def cachedBody (s : State) : Lookup → Option String
  | .hit key _ _ => (Database.get s.now s.table key).toOption
  | _ => none

/-- What was read before the loss of the connection answers the next request from the cache. -/
theorem brokenState_cached :
    ¬Withheld plainDigest dayConfig writtenState plainList
      (.started ⟨[.str "first"], some "unexpected EOF"⟩) ∧
    cachedBody brokenState (lookUp plainDigest dayConfig brokenState plainList) =
      some "[\"first\"]" := by
  refine ⟨?_, by decide +kernel⟩
  rintro ⟨hsame, -⟩
  rw [responseJSON, answers_of_startsQuery _ startsQuery_writtenState] at hsame
  exact List.cons_ne_self _ _ hsame

end Layr.Cache.Listing
