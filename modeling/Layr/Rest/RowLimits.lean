import Layr.Cache.GraphqlComplexity
import Layr.Rest.Accepted
import Layr.Rest.Builder

/-!
# The number of rows of a list

A list request is to return no more rows than the configured maximum. `BuildSelect` prints no
`LIMIT` for a limit of zero, and `Validate` does not compare the default limit with the maximum.
-/

namespace Layr.Rest

open Go

/-- The limit that a statement prints. -/
def Select.limitClause (select : Select) : Option ℤ :=
  if select.limit > 0 then some select.limit else none

theorem Select.limitClause_le_iff (select : Select) (bound : ℤ) :
    (∃ limit, select.limitClause = some limit ∧ limit ≤ bound) ↔
      0 < select.limit ∧ select.limit ≤ bound := by
  unfold limitClause
  split
  · simp_all
  · simp_all

/-- The limit that a request asks for. -/
def requestedLimit (urlValues : GoMap (List String)) : Option ℤ :=
  ((urlValues.get "limit").bind List.head?).bind parseCount

theorem requestedLimit_nonneg {urlValues : GoMap (List String)} {limit : ℤ}
    (h : requestedLimit urlValues = some limit) : 0 ≤ limit := by
  obtain ⟨value, -, hcount⟩ := Option.bind_eq_some_iff.mp h
  simpa using (Option.filter_eq_some_iff.mp hcount).2

/-- A parameter other than `limit` leaves the limit alone. -/
theorem limit_applyParam {maxLimit : ℤ} {queryParams next : QueryParams} {rawKey : String}
    {valueList : List String} (hkey : rawKey ≠ "limit")
    (h : applyParam maxLimit queryParams rawKey valueList = .ok next) :
    next.limit = queryParams.limit := by
  unfold applyParam at h
  cases valueList with
  | nil => rw [← Except.ok.inj h]
  | cons =>
    simp only [hkey, if_false] at h
    split_ifs at h
    · obtain ⟨⟨fields, embedded⟩, -, h⟩ := Result.bind_eq_ok.mp h
      rw [← Except.ok.inj h]
    · obtain ⟨orders, -, h⟩ := Result.bind_eq_ok.mp h
      rw [← Except.ok.inj h]
    · split at h
      · cases h
      · rw [← Except.ok.inj h]
    all_goals first
      | rw [← Except.ok.inj h]
      | obtain ⟨filters, -, h⟩ := Result.bind_eq_ok.mp h
        rw [← Except.ok.inj h]

/-- The limit of accepted parameters: the one that is asked for, up to the maximum, or the one
before. -/
theorem limit_foldlM {maxLimit : ℤ} {urlValues : GoMap (List String)}
    {queryParams next : QueryParams} (hnodup : (urlValues.map Prod.fst).Nodup)
    (h : urlValues.foldlM (fun queryParams e => applyParam maxLimit queryParams e.1 e.2)
      queryParams = .ok next) :
    next.limit = (requestedLimit urlValues).elim queryParams.limit (min · maxLimit) := by
  induction urlValues generalizing queryParams with
  | nil => rw [← Except.ok.inj h, requestedLimit, GoMap.get_nil]; rfl
  | cons e urlValues ih =>
    obtain ⟨key, values⟩ := e
    obtain ⟨hnew, hnodup⟩ := List.nodup_cons.mp hnodup
    rw [List.foldlM_cons] at h
    obtain ⟨mid, hmid, h⟩ := Result.bind_eq_ok.mp h
    have hrest := ih hnodup h
    unfold requestedLimit at hrest ⊢
    by_cases hkey : key = "limit"
    · subst hkey
      rw [GoMap.get_eq_none hnew] at hrest
      have hrest : next.limit = mid.limit := hrest
      rw [hrest, GoMap.get, if_pos rfl]
      cases values with
      | nil => rw [← Except.ok.inj hmid]; rfl
      | cons value values =>
        have hname : "limit" ≠ "select" ∧ "limit" ≠ "order" := by decide
        rw [applyParam, if_neg hname.1, if_neg hname.2, if_pos rfl] at hmid
        cases hcount : parseCount value with
        | none =>
          rw [hcount] at hmid
          cases hmid
        | some limit =>
          rw [hcount] at hmid
          cases hmid
          simp only [Option.elim, Option.bind_some, List.head?_cons, hcount]
          split <;> omega
    · rw [hrest, GoMap.get, if_neg hkey, limit_applyParam hkey hmid]

/-- With every accepted configuration and for every accepted query string, the statement prints a
limit of at most the maximum exactly when the request does not ask for zero rows, and, if it asks
for no limit, the default is at most the maximum. -/
theorem limited_iff (config : Cache.Graphql.DataConfig) (urlValues : GoMap (List String))
    (queryParams : QueryParams) (builder : QueryBuilder) (metadata : TableMetadata)
    (select : Select) (hvalid : config.validate = .ok ())
    (hparsed : parseQueryParams urlValues config.restDefaultLimit config.restMaxLimit =
      .ok queryParams)
    (hselect : buildSelect builder queryParams metadata = .ok select) :
    (∃ limit, select.limitClause = some limit ∧ limit ≤ config.restMaxLimit) ↔
      (requestedLimit urlValues).elim (config.restDefaultLimit ≤ config.restMaxLimit) (· ≠ 0) := by
  obtain ⟨clauses, -, h⟩ := Result.bind_eq_ok.mp hselect
  cases h
  have hlimit := limit_foldlM (GoMap.nodup_keys urlValues) hparsed
  rw [requestedLimit, GoMap.get_entries, ← requestedLimit] at hlimit
  obtain ⟨⟨⟩, hmax, h⟩ := Result.bind_eq_ok.mp hvalid
  obtain ⟨⟨⟩, hdefault, -⟩ := Result.bind_eq_ok.mp h
  have hmax := Cache.Graphql.validatePositive_ok hmax
  have hdefault := Cache.Graphql.validatePositive_ok hdefault
  rw [Select.limitClause_le_iff]
  cases hrequested : requestedLimit urlValues with
  | none =>
    rw [hrequested] at hlimit
    simp only [Option.elim] at hlimit ⊢
    omega
  | some limit =>
    have hnonneg := requestedLimit_nonneg hrequested
    rw [hrequested] at hlimit
    simp only [Option.elim] at hlimit ⊢
    omega

/-- Parameters with a limit only. -/
def limitOnly (limit : ℤ) : QueryParams := ⟨[], [], [], [], limit, 0, false, ""⟩

theorem ten_limited : ∃ select,
    buildSelect ⟨"public", "posts"⟩ (limitOnly 10) ⟨"id", []⟩ = .ok select ∧
      ∃ limit, select.limitClause = some limit ∧ limit ≤ 1000 :=
  ⟨_, rfl, (limited_iff (Cache.Graphql.depthConfig 8) [("limit", ["10"])] (limitOnly 10) _ _ _
    (by decide) rfl rfl).mpr (show (10 : ℤ) ≠ 0 by decide)⟩

/-- A request for zero rows has no limit at all, with the default configuration. -/
theorem zero_unlimited :
    (Cache.Graphql.depthConfig 8).validate = .ok () ∧
    parseQueryParams [("limit", ["0"])] (Cache.Graphql.depthConfig 8).restDefaultLimit
      (Cache.Graphql.depthConfig 8).restMaxLimit = .ok (limitOnly 0) ∧
    ∃ select, buildSelect ⟨"public", "posts"⟩ (limitOnly 0) ⟨"id", []⟩ = .ok select ∧
      select.limitClause = none ∧
      select.sql = "SELECT \"posts\".* FROM \"public\".\"posts\"" :=
  ⟨by decide, rfl, _, rfl, rfl, rfl⟩

end Layr.Rest
