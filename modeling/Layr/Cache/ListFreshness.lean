import Layr.Cache.ListSystem
import Layr.Kv.KeyRecords

/-!
# Cached lists and the age of versions

A table's version expires a day after the last write. A result that outlives the version it was
stored under can be found again: the counter restarts, and the writes that follow bring it back to
the same number. When no result outlives its version, and versions are counted for every write, each
cached answer shows all writes of its table that had completed when the request began.
-/

namespace Layr.Cache.Listing

open Go Kv Rest Database

variable {table : Database.Table} {entry : Entry} {request : ListRequest} {key : String}
  {name : TableName} {writes : ℕ} {now deadline : ℤ}

/-! ## Keys -/

/-- A table whose names are identifiers, as those of every exposed table are. -/
def IsNamed (name : TableName) : Prop :=
  isValidIdentifier name.schema ∧ isValidIdentifier name.table

theorem isNamed_of_isExposed {config : Config} (h : isExposed config name) :
    IsNamed name := by
  simp only [isExposed, Bool.and_eq_true] at h
  exact ⟨h.1.1.1.2, h.1.1.2⟩

theorem toList_versionKey (name : TableName) :
    (versionKey name).toList = "cache:v:".toList ++ (name.schema.toList ++
      ':' :: name.table.toList) := by
  simp [versionKey]

/-- Result keys have more colons, so the two kinds do not clash. -/
theorem count_versionKey (h : IsNamed name) : (versionKey name).toList.count ':' = 3 := by
  have hschema := List.count_eq_zero.mpr (notMem_of_isValidIdentifier (c := ':') h.1 (by decide))
  have htable := List.count_eq_zero.mpr (notMem_of_isValidIdentifier (c := ':') h.2 (by decide))
  have hcache : "cache:v:".toList.count ':' = 2 := by decide
  rw [toList_versionKey, List.count_append, List.count_append, List.count_cons_self, hschema,
    htable, hcache]

/-- Names without colons are read off the key. -/
theorem versionKey_injective {name' : TableName} (h : IsNamed name) (h' : IsNamed name')
    (heq : versionKey name = versionKey name') : name = name' := by
  have hlist := congrArg String.toList heq
  rw [toList_versionKey, toList_versionKey, List.append_cancel_left_eq] at hlist
  have hparts := Codes.append_cons_inj (notMem_of_isValidIdentifier h.1 (by decide))
    (notMem_of_isValidIdentifier h'.1 (by decide)) hlist
  have htable : name.table = name'.table := String.toList_inj.mp hparts.2
  have hschema : name.schema = name'.schema := String.toList_inj.mp hparts.1
  cases name
  cases name'
  simp_all

theorem isText_versionKey (h : IsNamed name) : Postgres.isText (versionKey name) := by
  have hschema := notMem_of_isValidIdentifier (c := Char.ofNat 0) h.1 (by decide)
  have htable := notMem_of_isValidIdentifier (c := Char.ofNat 0) h.2 (by decide)
  have hcache : Char.ofNat 0 ∉ "cache:v:".toList := by decide
  simp only [Postgres.isText, toList_versionKey, Bool.not_eq_true', List.contains_eq_mem,
    decide_eq_false_iff_not, List.mem_append, List.mem_cons, not_or]
  exact ⟨hcache, hschema, by decide, htable⟩

/-- The key of a result that is stored without a suffix. -/
def IsResultKey (digest : Digest) (entry : Entry) (key : String) : Prop :=
  ∃ (authContext : AuthContext) (tuple : RESTQueryTuple),
    key = buildInternalKey authContext ("rest" ++ ":" ++ digest.hex tuple.toJson.text) ∧
    tuple.schema = entry.name.schema ∧ tuple.table = entry.name.table ∧
    tuple.tableVersion = tableVersion entry

theorem isResultKey_internalCacheKey (digest : Digest) (queryParams : QueryParams)
    (hname : entry.name = request.name) (hsuffix : keySuffix request = "") :
    IsResultKey digest entry (internalCacheKey digest request queryParams entry) := by
  unfold internalCacheKey generateUserVisibleRESTKeyWithVersion buildRESTQueryKeyWithVersion
  rw [if_neg (by simp [hsuffix])]
  exact ⟨request.authContext, _, rfl, by rw [hname], by rw [hname], rfl⟩

/-- A key tells the table and the version a result was stored under. -/
theorem IsResultKey.agree {digest : Digest} {entry' : Entry} (h : IsResultKey digest entry key)
    (h' : IsResultKey digest entry' key) :
    entry.name = entry'.name ∧ tableVersion entry = tableVersion entry' := by
  obtain ⟨authContext, tuple, hkey, hschema, htable, hversion⟩ := h
  obtain ⟨authContext', tuple', hkey', hschema', htable', hversion'⟩ := h'
  have htext := hashed_eq_of_internalKey_eq digest (hkey.symm.trans hkey')
  have htuple := RESTQueryTuple.toJson_injective (Json.text_injective htext)
  rw [htuple] at hschema htable hversion
  refine ⟨?_, hversion.symm.trans hversion'⟩
  have hs := hschema.symm.trans hschema'
  have ht := htable.symm.trans htable'
  cases hname : entry.name
  cases hname' : entry'.name
  simp_all

theorem two_le_count_ownerText (authContext : AuthContext) :
    2 ≤ (ownerText authContext).toList.count ':' := by
  have hcolon : ":".toList.count ':' = 1 := by decide
  unfold ownerText
  split
  · simp only [String.toList_append, List.count_append, hcolon]
    omega
  · simp only [String.toList_append, List.count_append, hcolon]
    omega

/-- A result's key has more colons than a version's. -/
theorem IsResultKey.four_le_count {digest : Digest} (h : IsResultKey digest entry key) :
    4 ≤ key.toList.count ':' := by
  obtain ⟨authContext, tuple, rfl, -⟩ := h
  have howner := two_le_count_ownerText authContext
  have hstart : "cache:".toList.count ':' = 1 := by decide
  have hrest : "rest:".toList.count ':' = 1 := by decide
  have hkind : "rest" ++ ":" = "rest:" := by decide
  rw [hkind, buildInternalKey_eq, if_pos (isCacheKey_rest _)]
  simp only [String.toList_append, List.count_append, hstart, hrest]
  omega

/-! ## Versions -/

/-- A row that holds a version: a positive number below the limit, which expires within a day. -/
def IsVersionRow (now : ℤ) (row : Row) : Prop :=
  ∃ version : ℤ, 0 < version ∧ version < maxSafeVersion ∧
    row.value = Postgres.bigintText version ∧ row.expiresAt ≤ expiresAt now 0

theorem fits_of_version {version : ℤ} (hpos : 0 < version) (hmax : version < maxSafeVersion) :
    -2 ^ 63 ≤ version ∧ version < 2 ^ 63 := by
  simp only [maxSafeVersion] at hmax
  omega

theorem expiresAt_mono {later : ℤ} (h : now ≤ later) (expiry : ℤ) :
    expiresAt now expiry ≤ expiresAt later expiry := by
  unfold expiresAt
  omega

/-- A version that is alive is read as its number. -/
theorem getTableCacheVersion_of_alive {row : Row} {version : ℤ} (hname : IsNamed name)
    (halive : aliveRow now table (versionKey name) = some row)
    (hvalue : row.value = Postgres.bigintText version)
    (hfits : -2 ^ 63 ≤ version ∧ version < 2 ^ 63) :
    getTableCacheVersion now table name = version := by
  unfold getTableCacheVersion Database.get
  rw [if_pos (isText_versionKey hname), halive]
  simp only [hvalue, Postgres.bigintText, String.toList_ofList, Strconv.parseInt_formatInt hfits,
    Option.getD_some]

/-- A version that is missing or has expired reads as zero. -/
theorem getTableCacheVersion_of_none {now : ℤ} {table : Database.Table} {name : TableName}
    (hnone : aliveRow now table (versionKey name) = none) :
    getTableCacheVersion now table name = 0 := by
  unfold getTableCacheVersion Database.get
  rw [hnone]
  split
  · rename_i hget
    split at hget
    · cases hget
    · cases hget
  · rfl

/-- An increment that stays below the limit counts the version up and lets it live for a day. -/
theorem invalidateTableCache_eq {config : CacheConfig} (hname : IsNamed name)
    (hactive : config.enabled ∧ config.invalidateOnMutation)
    (hrow : ∀ row, table.get (versionKey name) = some row → IsVersionRow now row)
    (hmax : getTableCacheVersion now table name + 1 < maxSafeVersion) :
    invalidateTableCache config now table name =
      table.set (versionKey name)
        ⟨Postgres.bigintText (getTableCacheVersion now table name + 1),
          expiresAt now 0⟩ := by
  have hcount : incremented now table (versionKey name) 1 =
      some (getTableCacheVersion now table name + 1) := by
    unfold incremented
    cases halive : aliveRow now table (versionKey name) with
    | none => rw [getTableCacheVersion_of_none halive]; rfl
    | some row =>
      obtain ⟨version, hpos, hlt, hvalue, -⟩ := hrow row (aliveRow_eq_some.mp halive).1
      have hfits := fits_of_version hpos hlt
      have hnext : -2 ^ 63 ≤ version + 1 ∧ version + 1 < 2 ^ 63 := by
        simp only [maxSafeVersion] at hlt
        omega
      rw [getTableCacheVersion_of_alive hname halive hvalue hfits]
      simp only [hvalue, Postgres.parseBigint_bigintText hfits, Option.bind_some, if_pos hnext]
  unfold invalidateTableCache Database.increment incrementBy
  rw [hactive.1, hactive.2, if_pos (isText_versionKey hname), hcount]
  simp only [Bool.not_true, Bool.or_self, Bool.false_eq_true, if_false]
  rw [if_neg (by omega)]

/-! ## The invariant -/

/-- What protects an entry from being found when it is out of date, given its table's version row
and number of writes: the version has moved on from the entry's and outlives the result, or there
has been neither a version nor a write since, and the next version will outlive the result. -/
def Protected (now : ℤ) (row : Option Row) (writes : ℕ) (entry : Entry) (deadline : ℤ) :
    Prop :=
  (∃ version expiresAt, row = some ⟨Postgres.bigintText version, expiresAt⟩ ∧
      deadline ≤ expiresAt ∧ entry.rootVersion ≤ version ∧
      (entry.rootVersion = version → writes ≤ entry.writes)) ∨
  (row.filter (·.isAlive now) = none ∧ entry.rootVersion = 0 ∧ writes ≤ entry.writes ∧
    deadline ≤ expiresAt now 0)

/-- Time keeps the protection. -/
theorem Protected.later {later : ℤ} {row : Option Row}
    (h : Protected now row writes entry deadline) (hle : now ≤ later) :
    Protected later row writes entry deadline := by
  rcases h with h | ⟨hnone, hversion, hwrites, hdeadline⟩
  · exact .inl h
  · refine .inr ⟨?_, hversion, hwrites, hdeadline.trans (expiresAt_mono hle 0)⟩
    rw [Option.filter_eq_none_iff] at hnone ⊢
    intro row hrow halive
    have hdead := hnone row hrow
    simp only [Row.isAlive, gt_iff_lt, decide_eq_true_eq] at halive hdead
    omega

/-- Removing the expired rows keeps the protection of results that are alive. -/
theorem Protected.swept {row : Option Row} (h : Protected now row writes entry deadline)
    (halive : now < deadline) :
    Protected now (row.filter (·.isAlive now)) writes entry deadline := by
  rcases h with ⟨version, expiresAt, rfl, hdeadline, hversion⟩ | ⟨hnone, hrest⟩
  · have hrow : (⟨Postgres.bigintText version, expiresAt⟩ : Row).isAlive now := by
      simp only [Row.isAlive, gt_iff_lt, decide_eq_true_eq]
      omega
    exact .inl ⟨version, expiresAt, by simp [hrow], hdeadline, hversion⟩
  · exact .inr ⟨by rw [hnone]; rfl, hrest⟩

/-- What holds in every state. -/
structure Inv (digest : Digest) (s : State) : Prop where
  versions : ∀ name row, IsNamed name → s.table.get (versionKey name) = some row →
    IsVersionRow s.now row
  rows : ∀ key row, s.table.get key = some row → 4 ≤ key.toList.count ':' →
    (s.stored.get key).isSome
  results : ∀ key entry, s.stored.get key = some entry →
    IsNamed entry.name ∧ IsResultKey digest entry key
  guarded : ∀ key entry row, s.stored.get key = some entry →
    aliveRow s.now s.table key = some row →
    Protected s.now (s.table.get (versionKey entry.name)) (s.writesOf entry.name) entry
      row.expiresAt
  fresh : Fresh s

theorem inv_initial (digest : Digest) : Inv digest initial where
  versions := by intro name row _ hrow; cases hrow
  rows := by intro key row hrow; cases hrow
  results := by intro key entry hentry; cases hentry
  guarded := by intro key entry row hentry; cases hentry
  fresh := by intro answer hanswer; cases hanswer

/-! ## Steps -/

section

variable {digest : Digest} {config : Config} {s s' : State}

/-- When the version that a result is stored under now expires, or, where there is none, when one
that is made now does. -/
def versionDeadline (s : State) (name : TableName) : ℤ :=
  ((aliveRow s.now s.table (versionKey name)).map (·.expiresAt)).getD
    (expiresAt s.now 0)

/-- The condition on a step. A result that is stored has no key suffix and does not outlive the
version it is stored under; a result that is found has no suffix either, and the hash of the
versions does not confuse its own with the current ones; a write increments the version and does
not reach the limit. -/
def isAllowed (digest : Digest) (config : Config) (s : State) : Label → Bool
  | .list request response =>
    match lookUp digest config s request with
    | .hit _ stored entry =>
      decide (keySuffix request = "") &&
        decide (tableVersion stored = tableVersion entry → stored.rootVersion = entry.rootVersion)
    | .miss _ _ =>
      !(response.isSome && shouldCache config s) ||
        (decide (keySuffix request = "") &&
          decide (expiresAt s.now (seconds (cacheTTL config request)) ≤
            versionDeadline s request.name))
    | _ => true
  | .write name succeeds =>
    !(isExposed config name && succeeds) ||
      (config.enabled && config.invalidateOnMutation &&
        decide (s.version name + 1 < maxSafeVersion))
  | .wait _ => true
  | .sweep => true

/-- A request is rejected, not cached, found or missed. -/
theorem lookUp_cases (digest : Digest) (config : Config) (s : State) (request : ListRequest) :
    lookUp digest config s request = .rejected ∨ lookUp digest config s request = .uncached ∨
      ∃ queryParams entry key, IsNamed request.name ∧ entry = newEntry s request queryParams ∧
        key = internalCacheKey digest request queryParams entry ∧
        (lookUp digest config s request = .miss key entry ∨
          ∃ row, aliveRow s.now s.table key = some row ∧
            lookUp digest config s request = .hit key ((s.stored.get key).getD entry) entry) := by
  unfold lookUp
  by_cases hexposed : isExposed config request.name
  swap
  · simp [hexposed]
  rw [if_neg (by simp [hexposed])]
  cases parseQueryParams request.urlValues config.defaultLimit config.maxLimit with
  | error _ => exact .inl rfl
  | ok queryParams =>
    by_cases httl : cacheTTL config request ≤ 0
    · simp [httl]
    simp only [if_neg httl]
    refine .inr (.inr ⟨queryParams, _, _, isNamed_of_isExposed hexposed, rfl, rfl, ?_⟩)
    cases hget : Database.get s.now s.table (internalCacheKey digest request queryParams
      (newEntry s request queryParams)) with
    | error _ => exact .inl rfl
    | ok cached =>
      by_cases hempty : cached = ""
      · simp [hempty]
      obtain ⟨row, halive⟩ := aliveRow_of_get hget
      exact .inr ⟨row, halive, by simp [hempty]⟩

/-- The row that a write leaves for its table's version. -/
def State.nextVersion (s : State) (name : TableName) : Row :=
  ⟨Postgres.bigintText (s.version name + 1), expiresAt s.now 0⟩

/-- What storing a result changes, beside the number of cached queries. -/
theorem store_cases (config : Config) (s : State) (request : ListRequest) (key : String)
    (entry : Entry) (response key' : String) :
    (key' = key ∧ (store config s request key entry response).stored.get key' = some entry ∧
      (key' ≠ "cache:query_count" → (store config s request key entry response).table.get key' =
        some ⟨response, expiresAt s.now (seconds (cacheTTL config request))⟩)) ∨
    ((store config s request key entry response).stored.get key' = s.stored.get key' ∧
      (key' ≠ "cache:query_count" →
        (store config s request key entry response).table.get key' = s.table.get key')) := by
  have hcount : key' ≠ "cache:query_count" →
      (store config s request key entry response).table.get key' =
        (Database.set s.now s.table key response (seconds (cacheTTL config request))).2.get key' :=
    fun hne => get_incrementBy_of_ne _ _ hne _ _
  by_cases htext : Postgres.isText key
  · have hstored : (store config s request key entry response).stored.get key' =
        if key' = key then some entry else s.stored.get key' := by
      unfold store Database.set
      rw [if_pos htext]
      exact GoMap.get_set key key' entry s.stored
    rw [Database.set, if_pos htext, GoMap.get_set] at hcount
    by_cases hkey : key' = key
    · rw [if_pos hkey] at hcount hstored
      exact .inl ⟨hkey, hstored, hcount⟩
    · rw [if_neg hkey] at hcount hstored
      exact .inr ⟨hstored, hcount⟩
  · -- the key cannot be written, and nothing is stored
    rw [Database.set, if_neg htext] at hcount
    refine .inr ⟨?_, hcount⟩
    unfold store Database.set
    rw [if_neg htext]
    rfl

section

variable (hinv : Inv digest s)

include hinv

/-- A version that is alive, as its row holds it. -/
theorem Inv.version_of_alive (hname : IsNamed name) {row : Row}
    (halive : aliveRow s.now s.table (versionKey name) = some row) :
    0 < s.version name ∧ row.value = Postgres.bigintText (s.version name) ∧
      row.expiresAt ≤ expiresAt s.now 0 := by
  obtain ⟨version, hpos, hmax, hvalue, hexpires⟩ :=
    hinv.versions name row hname (aliveRow_eq_some.mp halive).1
  obtain rfl : s.version name = version :=
    getTableCacheVersion_of_alive hname halive hvalue (fits_of_version hpos hmax)
  exact ⟨hpos, hvalue, hexpires⟩

theorem Inv.answer {cached : Option ℕ} (hfresh : ∀ stored, cached = some stored → writes ≤ stored) :
    Inv digest (s.answer name writes cached) where
  versions := hinv.versions
  rows := hinv.rows
  results := hinv.results
  guarded := hinv.guarded
  fresh := by
    intro answer hanswer
    rcases List.mem_cons.mp hanswer with rfl | hanswer
    · exact hfresh
    · exact hinv.fresh answer hanswer

/-- An entry that is protected and found under the current version is up to date. -/
theorem Inv.writesOf_le (hname : IsNamed entry.name) (halive : s.now < deadline)
    (hguard : Protected s.now (s.table.get (versionKey entry.name)) (s.writesOf entry.name) entry
      deadline)
    (hversion : entry.rootVersion = s.version entry.name) :
    s.writesOf entry.name ≤ entry.writes := by
  rcases hguard with ⟨version, expiresAt, hrow, hdeadline, -, hwrites⟩ | ⟨-, -, hwrites, -⟩
  · obtain ⟨-, hvalue, -⟩ := hinv.version_of_alive hname
      (aliveRow_eq_some.mpr ⟨hrow, lt_of_lt_of_le halive hdeadline⟩)
    exact hwrites (hversion.trans (Postgres.bigintText_injective hvalue).symm)
  · exact hwrites

/-- An entry that is found is protected, so it is up to date. -/
theorem Inv.found {queryParams : QueryParams} {row : Row}
    (hsuffix : keySuffix request = "")
    (hkey : key = internalCacheKey digest request queryParams (newEntry s request queryParams))
    (halive : aliveRow s.now s.table key = some row) {stored : Entry}
    (hstored : stored = (s.stored.get key).getD (newEntry s request queryParams))
    (hversion : tableVersion stored = tableVersion (newEntry s request queryParams) →
      stored.rootVersion = s.version request.name) : s.writesOf request.name ≤ stored.writes := by
  have hresult : IsResultKey digest (newEntry s request queryParams) key :=
    hkey ▸ isResultKey_internalCacheKey digest queryParams rfl hsuffix
  obtain ⟨hrow, hlive⟩ := aliveRow_eq_some.mp halive
  obtain ⟨entry, hentry⟩ := Option.isSome_iff_exists.mp
    (hinv.rows key row hrow hresult.four_le_count)
  obtain rfl : stored = entry := by rw [hstored, hentry]; rfl
  obtain ⟨hname, hkeyed⟩ := hinv.results key stored hentry
  obtain ⟨hsame, htable⟩ := hkeyed.agree hresult
  have hrequest : stored.name = request.name := hsame
  have hguard := hinv.guarded key stored row hentry halive
  rw [← hrequest] at hversion ⊢
  exact hinv.writesOf_le hname hlive hguard (hversion htable)

theorem Inv.wait (microseconds : ℕ) : Inv digest { s with now := s.now + microseconds } where
  versions := by
    intro name row hname hrow
    obtain ⟨version, hpos, hmax, hvalue, hexpires⟩ := hinv.versions name row hname hrow
    have hlater : s.now ≤ s.now + microseconds := by omega
    exact ⟨version, hpos, hmax, hvalue, hexpires.trans (expiresAt_mono hlater 0)⟩
  rows := hinv.rows
  results := hinv.results
  guarded := by
    intro key entry row hentry halive
    have hlater : s.now ≤ s.now + microseconds := by omega
    obtain ⟨hrow, hlive⟩ := aliveRow_eq_some.mp halive
    have hearlier : aliveRow s.now s.table key = some row :=
      aliveRow_eq_some.mpr ⟨hrow, lt_of_le_of_lt hlater hlive⟩
    exact (hinv.guarded key entry row hentry hearlier).later hlater
  fresh := hinv.fresh

theorem Inv.sweep : Inv digest { s with table := sweep s.now s.table } where
  versions := by
    intro name row hname hrow
    rw [get_sweep, aliveRow_eq_some] at hrow
    exact hinv.versions name row hname hrow.1
  rows := by
    intro key row hrow
    rw [get_sweep, aliveRow_eq_some] at hrow
    exact hinv.rows key row hrow.1
  results := hinv.results
  guarded := by
    intro key entry row hentry halive
    rw [aliveRow_eq_some, get_sweep] at halive
    have hguard := hinv.guarded key entry row hentry halive.1
    rw [get_sweep]
    exact hguard.swept halive.2
  fresh := hinv.fresh

/-- A version is a number of writes, or zero. -/
theorem Inv.version_nonneg (hname : IsNamed name) : 0 ≤ s.version name := by
  cases halive : aliveRow s.now s.table (versionKey name) with
  | none => exact (getTableCacheVersion_of_none halive).ge
  | some row => exact (hinv.version_of_alive hname halive).1.le

/-- A write protects the entries of its table: the version it leaves is above theirs. -/
theorem Inv.protected_nextVersion (hname : IsNamed entry.name) (halive : s.now < deadline)
    (hguard : Protected s.now (s.table.get (versionKey entry.name)) (s.writesOf entry.name) entry
      deadline) : Protected s.now (some (s.nextVersion entry.name)) writes entry deadline := by
  rcases hguard with ⟨version, expiresAt, hrow, hdeadline, hle, -⟩ | ⟨hnone, hzero, -, hdeadline⟩
  · obtain ⟨-, hvalue, hexpires⟩ := hinv.version_of_alive hname
      (aliveRow_eq_some.mpr ⟨hrow, lt_of_lt_of_le halive hdeadline⟩)
    have hsame : version = s.version entry.name := Postgres.bigintText_injective hvalue
    exact .inl ⟨s.version entry.name + 1, _, rfl, hdeadline.trans hexpires, by omega, by omega⟩
  · have hcurrent : s.version entry.name = 0 := getTableCacheVersion_of_none hnone
    exact .inl ⟨s.version entry.name + 1, _, rfl, hdeadline, by omega, by omega⟩

/-- The version moves on from that of every entry of the table. -/
theorem Inv.write (hname : IsNamed name)
    (hactive : config.enabled ∧ config.invalidateOnMutation)
    (hmax : s.version name + 1 < maxSafeVersion) :
    Inv digest
      { s with
        table := invalidateTableCache config.toCacheConfig s.now s.table name
        writes := name :: s.writes } := by
  have htable : ∀ key, (invalidateTableCache config.toCacheConfig s.now s.table name).get key =
      if key = versionKey name then some (s.nextVersion name) else s.table.get key := by
    intro key
    rw [invalidateTableCache_eq hname hactive (fun row => hinv.versions name row hname) hmax]
    exact GoMap.get_set (versionKey name) key _ s.table
  have hnonneg := hinv.version_nonneg hname
  refine ⟨?_, ?_, hinv.results, ?_, hinv.fresh⟩
  · intro other row hother hrow
    rw [htable] at hrow
    split at hrow
    · cases hrow
      exact ⟨s.version name + 1, by omega, hmax, rfl, le_refl _⟩
    · exact hinv.versions other row hother hrow
  · intro key row hrow hcount
    rw [htable, if_neg (by rintro rfl; rw [count_versionKey hname] at hcount; omega)] at hrow
    exact hinv.rows key row hrow hcount
  · intro key entry row hentry halive
    obtain ⟨hnamed, hkey⟩ := hinv.results key entry hentry
    have hne : key ≠ versionKey name := by
      rintro rfl
      have hcount := hkey.four_le_count
      rw [count_versionKey hname] at hcount
      omega
    obtain ⟨hrow, hlive⟩ := aliveRow_eq_some.mp halive
    rw [htable, if_neg hne] at hrow
    have hguard := hinv.guarded key entry row hentry (aliveRow_eq_some.mpr ⟨hrow, hlive⟩)
    rw [htable]
    by_cases hsame : entry.name = name
    · rw [if_pos (by rw [hsame]), ← hsame]
      exact hinv.protected_nextVersion hnamed hlive hguard
    · -- the write is none of the entry's table
      have hkeys : versionKey entry.name ≠ versionKey name :=
        fun heq => hsame (versionKey_injective hnamed hname heq)
      have hwrites : List.count entry.name (name :: s.writes) = s.writesOf entry.name :=
        List.count_cons_of_ne (Ne.symm hsame)
      rw [if_neg hkeys]
      show Protected s.now _ (List.count entry.name (name :: s.writes)) entry row.expiresAt
      rw [hwrites]
      exact hguard

/-- A new entry is protected by the version it is stored under. -/
theorem Inv.protected_newEntry (queryParams : QueryParams) (hname : IsNamed request.name)
    (hdeadline : deadline ≤ versionDeadline s request.name) :
    Protected s.now (s.table.get (versionKey request.name)) (s.writesOf request.name)
      (newEntry s request queryParams) deadline := by
  unfold versionDeadline at hdeadline
  cases halive : aliveRow s.now s.table (versionKey request.name) with
  | none =>
    rw [halive] at hdeadline
    exact .inr ⟨halive, getTableCacheVersion_of_none halive, le_refl _, hdeadline⟩
  | some row =>
    rw [halive] at hdeadline
    refine .inl ⟨s.version request.name, row.expiresAt, ?_, hdeadline, le_rfl, fun _ => le_rfl⟩
    rw [(aliveRow_eq_some.mp halive).1, ← (hinv.version_of_alive hname halive).2.1]

/-- A new entry is stored under the current version. -/
theorem Inv.kept {queryParams : QueryParams} (response : String) (hname : IsNamed request.name)
    (hkey : IsResultKey digest (newEntry s request queryParams) key)
    (hdeadline : expiresAt s.now (seconds (cacheTTL config request)) ≤
      versionDeadline s request.name) :
    Inv digest (store config s request key (newEntry s request queryParams) response) := by
  have hcases := store_cases config s request key (newEntry s request queryParams) response
  have hcount : "cache:query_count".toList.count ':' = 1 := by decide
  have hapart : ∀ key : String, 2 ≤ key.toList.count ':' → key ≠ "cache:query_count" := by
    rintro key hle rfl
    omega
  -- the versions are none of the keys that change
  have hversions : ∀ {name}, IsNamed name →
      (store config s request key (newEntry s request queryParams) response).table.get
        (versionKey name) = s.table.get (versionKey name) := by
    intro name hnamed
    have hthree := count_versionKey hnamed
    have hfour := hkey.four_le_count
    rcases hcases (versionKey name) with ⟨rfl, -⟩ | ⟨-, htable⟩
    · omega
    · exact htable (hapart _ (by omega))
  have hresults : ∀ key' entry,
      (store config s request key (newEntry s request queryParams) response).stored.get key' =
        some entry → IsNamed entry.name ∧ IsResultKey digest entry key' := by
    intro key' entry hentry
    rcases hcases key' with ⟨rfl, hstored, -⟩ | ⟨hstored, -⟩
    · obtain rfl := Option.some.inj (hstored.symm.trans hentry)
      exact ⟨hname, hkey⟩
    · exact hinv.results key' entry (hstored ▸ hentry)
  refine ⟨?_, ?_, hresults, ?_, hinv.fresh⟩
  · intro name row hnamed hrow
    rw [hversions hnamed] at hrow
    exact hinv.versions name row hnamed hrow
  · intro key' row hrow hle
    rcases hcases key' with ⟨-, hstored, -⟩ | ⟨hstored, htable⟩
    · rw [hstored]
      rfl
    · rw [hstored]
      exact hinv.rows key' row (htable (hapart _ (by omega)) ▸ hrow) hle
  · intro key' entry row hentry halive
    obtain ⟨hnamed, hkeyed⟩ := hresults key' entry hentry
    rw [hversions hnamed]
    obtain ⟨hrow, hlive⟩ := aliveRow_eq_some.mp halive
    have hfour := hkeyed.four_le_count
    rcases hcases key' with ⟨-, hstored, htable⟩ | ⟨hstored, htable⟩
    · obtain rfl := Option.some.inj (hstored.symm.trans hentry)
      obtain rfl := Option.some.inj ((htable (hapart _ (by omega))).symm.trans hrow)
      exact hinv.protected_newEntry queryParams hname hdeadline
    · exact hinv.guarded key' entry row (hstored ▸ hentry)
        (aliveRow_eq_some.mpr ⟨htable (hapart _ (by omega)) ▸ hrow, hlive⟩)

theorem Inv.list {response : Option String}
    (hallowed : isAllowed digest config s (.list request response)) :
    Inv digest (handleListRecords digest config s request response) := by
  have hnone : ∀ stored, none = some stored → s.writesOf request.name ≤ stored := by
    intro stored h
    cases h
  unfold handleListRecords
  simp only [isAllowed] at hallowed
  rcases lookUp_cases digest config s request with hlook | hlook | ⟨queryParams, entry, key, hname,
    rfl, rfl, hlook | ⟨row, halive, hlook⟩⟩
  · rw [hlook]
    exact hinv
  · rw [hlook]
    cases response with
    | none => exact hinv
    | some => exact hinv.answer hnone
  · rw [hlook] at hallowed ⊢
    cases response with
    | none => exact hinv
    | some response =>
      by_cases hcache : shouldCache config s
      · simp only [hcache, Option.isSome_some, Bool.and_self, Bool.not_true, Bool.false_or,
          Bool.and_eq_true, decide_eq_true_eq] at hallowed
        simp only [if_pos hcache]
        have hkey : IsResultKey digest (newEntry s request queryParams) _ :=
          isResultKey_internalCacheKey digest queryParams rfl hallowed.1
        exact (hinv.kept response hname hkey hallowed.2).answer hnone
      · simp only [if_neg hcache]
        exact hinv.answer hnone
  · rw [hlook] at hallowed ⊢
    simp only [Bool.and_eq_true, decide_eq_true_eq] at hallowed
    refine hinv.answer fun writes hwrites => ?_
    cases hwrites
    exact hinv.found hallowed.1 rfl halive rfl hallowed.2

theorem Inv.step {label : Label} (hallowed : isAllowed digest config s label)
    (hstep : step digest config s label = some s') : Inv digest s' := by
  cases label <;> obtain rfl := Option.some.inj hstep
  case list request response => exact hinv.list hallowed
  case write name succeeds =>
    unfold handleWrite
    by_cases hdone : (isExposed config name && succeeds)
    · simp only [isAllowed, hdone, Bool.not_true, Bool.false_or, Bool.and_eq_true,
        decide_eq_true_eq] at hallowed
      rw [if_pos hdone]
      exact hinv.write (isNamed_of_isExposed (Bool.and_eq_true _ _ ▸ hdone).1) hallowed.1 hallowed.2
    · rw [if_neg hdone]
      exact hinv
  case wait microseconds => exact hinv.wait microseconds
  case sweep => exact hinv.sweep

end

/-- In every run of list requests, writes and passing time whose steps meet the condition, no list
request is answered with a cached result that a completed write of its table has outdated. -/
theorem listAnswers_fresh (digest : Digest) (config : Config) {s : State}
    (hrun : Runs.Run (step digest config) (fun s label => isAllowed digest config s label)
      initial s) : Fresh s := by
  have hinv : Inv digest s :=
    hrun.invariant (inv_initial digest) fun _ _ _ hinv hallowed hstep => hinv.step hallowed hstep
  exact hinv.fresh

end

def plainList : ListRequest where
  name := ⟨"s", "t"⟩
  authContext := ⟨"u", "a", ""⟩
  urlValues := []
  headers := []

/-- What is hashed for the key of the plain list under version 1. -/
def plainTuple : RESTQueryTuple where
  schema := "s"
  table := "t"
  tableVersion := 1
  select := ""
  filters := ""
  order := ""
  limit := 20
  offset := 0
  countExact := false

def plainDigest : Digest := .listed [plainTuple.toJson.text]

def hours (n : ℕ) : Label := .wait (n * 3600000000)

/-- A write, and two lists within the hour, the second of which finds the result of the first. -/
def promptRun : List Label :=
  [.write ⟨"s", "t"⟩ true, .list plainList (some "[]"), hours 1, .list plainList none]

theorem promptRun_fresh : ∃ s, Runs.Run (step plainDigest dayConfig)
      (fun s label => isAllowed plainDigest dayConfig s label) initial s ∧
      s.answers = [⟨⟨"s", "t"⟩, 1, some 1⟩, ⟨⟨"s", "t"⟩, 1, none⟩] ∧ Fresh s :=
  Runs.exists_run promptRun State.answers (by decide +kernel) (by decide +kernel)
    fun _ hrun hanswers => ⟨hanswers, listAnswers_fresh plainDigest dayConfig hrun⟩

/-- The first list is stored under version 1 an hour before that version expires. The write two
hours later starts a new counter at 1. -/
def restartedRun : List Label :=
  [.write ⟨"s", "t"⟩ true, hours 23, .list plainList (some "[]"), hours 2,
    .write ⟨"s", "t"⟩ true, .list plainList none]

/-- The last list begins after two writes, and is answered with the result that was stored after
the first one. -/
theorem restartedRun_not_fresh : ∃ s,
    Runs.exec (step plainDigest dayConfig) initial restartedRun = some s ∧
      s.answers = [⟨⟨"s", "t"⟩, 2, some 1⟩, ⟨⟨"s", "t"⟩, 1, none⟩] ∧ ¬Fresh s := by
  refine Runs.exists_exec State.answers (by decide +kernel) fun s hanswers => ⟨hanswers, ?_⟩
  intro hfresh
  have hle : 2 ≤ 1 := hfresh ⟨⟨"s", "t"⟩, 2, some 1⟩ (by simp [hanswers]) 1 rfl
  omega

end Layr.Cache.Listing
