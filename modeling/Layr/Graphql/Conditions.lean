import Layr.Graphql.CompilerReading

/-!
# What the conditions of a statement mean

A condition has a truth value on a row, in the three-valued logic of SQL, and so has every column,
operator and operand triple of a `where` argument that GraphQL gives a meaning to. A clause is
faithful when its conditions are the meanings of the triples, one for each. The qualifier of a
column has no quotes, so Postgres folds it; the name in `UPDATE` and `DELETE FROM` is quoted.
-/

namespace Layr.Graphql

open Go Lib

/-! ## Truth -/

/-- What Postgres does with the values of columns: a comparison with an argument, which is unknown
where one of the two is null, and the test for null. -/
structure Comparisons (γ : Type) where
  compare : CompareOp → γ → Value → Option Bool
  isNull : γ → Bool

/-- `OR` of any number of truth values. -/
def anyTrue (values : List (Option Bool)) : Option Bool :=
  if some true ∈ values then some true else if none ∈ values then none else some false

section meaning

variable {γ : Type} (db : Comparisons γ)

/-- The meaning of an operator with an operand, for a value of the column. -/
def filterMeaning : String → Value → Option (γ → Option Bool)
  | "_eq", operand => some fun x => db.compare .eq x operand
  | "_neq", operand => some fun x => db.compare .neq x operand
  | "_gt", operand => some fun x => db.compare .gt x operand
  | "_gte", operand => some fun x => db.compare .gte x operand
  | "_lt", operand => some fun x => db.compare .lt x operand
  | "_lte", operand => some fun x => db.compare .lte x operand
  | "_like", operand => some fun x => db.compare .like x operand
  | "_ilike", operand => some fun x => db.compare .ilike x operand
  | "_in", .list operands => some fun x => anyTrue (operands.map (db.compare .eq x))
  | "_is_null", .bool isNull => some fun x => some (db.isNull x == isNull)
  | _, _ => none

/-- The meaning of a triple on a row. -/
def tripleMeaning (triple : String × String × Value) : Option ((String → γ) → Option Bool) :=
  (filterMeaning db triple.2.1 triple.2.2).map fun meaning row => meaning (row triple.1)

/-- The truth of a condition on the row that is read as `rowName`. -/
def Condition.truth (σ : ℕ → Value) (rowName : String) (condition : Condition)
    (row : String → γ) : Option Bool :=
  match condition with
  | compare qualifier column operator index =>
    db.compare operator (row (resolveColumn rowName qualifier column)) (σ index)
  | inList qualifier column indices =>
    anyTrue ((indices.map σ).map (db.compare .eq (row (resolveColumn rowName qualifier column))))
  | never => some false
  | isNull qualifier column => some (db.isNull (row (resolveColumn rowName qualifier column)))
  | isNotNull qualifier column =>
    some (!db.isNull (row (resolveColumn rowName qualifier column)))

/-- The conditions of a clause are the meanings of the triples of a `where` argument. -/
def ClauseMeans (σ : ℕ → Value) (rowName : String) (conditions : List Condition)
    (whereArg : Value) : Prop :=
  (whereFilters whereArg).map (tripleMeaning db) =
    conditions.map fun condition => some (condition.truth db σ rowName)

/-- The meaning of a conjunct. -/
def Conjunct.meaning : Conjunct → Option ((String → γ) → Option Bool)
  | filter column filterOp operand => tripleMeaning db (column, filterOp, operand)
  | never => some fun _ => some false

theorem meaning_statedConjunct (triple : String × String × Value) :
    (statedConjunct triple).meaning db = tripleMeaning db triple := by
  unfold statedConjunct
  split
  · rfl
  · rfl

/-- What the compiler prints is understood, with the truth of its condition. -/
theorem meaning_reading (σ : ℕ → Value) (rowName : String) (condition : Condition) :
    (condition.reading σ rowName).meaning db = some (condition.truth db σ rowName) := by
  cases condition with
  | compare qualifier column operator index => cases operator <;> rfl
  | inList => rfl
  | never => rfl
  | isNull qualifier column | isNotNull qualifier column =>
    simp [Condition.reading, Conjunct.meaning, tripleMeaning, filterMeaning]
    rfl

/-- Only what the compiler understands has a meaning. -/
theorem isUnderstood_of_meaning {triple : String × String × Value}
    (h : (tripleMeaning db triple).isSome) : isUnderstood triple := by
  obtain ⟨column, filterOp, operand⟩ := triple
  rw [tripleMeaning, Option.isSome_map] at h
  dsimp only at h
  unfold filterMeaning at h
  split at h
  case h_11 => cases h
  all_goals rfl

end meaning

/-! ## Clauses -/

/-- The name of a block's rows and its conditions. -/
def Select.whereClause : Select → String × List Condition
  | .mk _ _ _ tableAlias _ conditions _ _ _ => (tableAlias, conditions)

/-- The name of the written rows and the conditions on them. -/
def MutationCte.whereClause : MutationCte → Option (String × List Condition)
  | insert _ _ _ _ _ => none
  | update _ _ table _ conditions => some (table, conditions)
  | delete _ _ table conditions => some (table, conditions)

namespace Compiler

variable {compiler : Compiler} {γ : Type} (db : Comparisons γ) {σ : ℕ → Value}

/-- The clause of an update or a delete is compiled from its `where` argument. -/
theorem whereClause_compileMutation {cteName : String} {field : FieldNode} {startIndex : ℕ}
    {cte : Compiled MutationCte} {rowName : String} {conditions : List Condition}
    (h : compiler.compileMutation cteName field startIndex = .ok cte)
    (hclause : cte.sql.whereClause = some (rowName, conditions)) :
    ∃ argIndex compiled, compileWhere rowName (field.argument "where") argIndex = .ok compiled ∧
      compiled.sql = conditions ∧
      (Binds σ startIndex cte.args → Binds σ argIndex compiled.args) := by
  obtain ⟨-, h⟩ | ⟨-, -, h⟩ | ⟨-, -, -, h⟩ := compileMutation_ok h
  · obtain ⟨schema, table, recordMap, objects, columns, rows, -, -, -, -, -, rfl⟩ :=
      compileInsert_ok h
    cases hclause
  · obtain ⟨schema, table, updateMap, sets, compiled, -, -, -, hsets, hwhere, rfl⟩ :=
      compileUpdate_ok h
    cases hclause
    refine ⟨sets.next, compiled, hwhere, rfl, fun hbinds => ?_⟩
    rw [Binds.append_iff, ← (numbered_compileSets hsets).next_eq] at hbinds
    exact hbinds.2
  · obtain ⟨schema, table, compiled, -, -, hwhere, rfl⟩ := compileDelete_ok h
    cases hclause
    exact ⟨startIndex, compiled, hwhere, rfl, id⟩

/-- The clause means what its argument says when all of it is understood. -/
theorem compileWhere_means_iff {tableAlias : String} {whereArg : Value} {startIndex : ℕ}
    {conditions : Compiled (List Condition)}
    (h : compileWhere tableAlias whereArg startIndex = .ok conditions)
    (hbinds : Binds σ startIndex conditions.args) :
    ClauseMeans db σ tableAlias conditions.sql whereArg ↔ whereUnderstood whereArg := by
  constructor
  · intro hmeans
    refine List.all_eq_true.mpr fun triple htriple => isUnderstood_of_meaning db ?_
    have hmem := List.mem_map_of_mem (f := tripleMeaning db) htriple
    rw [hmeans] at hmem
    obtain ⟨condition, -, hcondition⟩ := List.mem_map.mp hmem
    rw [← hcondition]
    rfl
  · intro hunderstood
    have hreading := (reading_compileWhere h hbinds).mpr hunderstood
    have hmeaning := congrArg (List.map (Conjunct.meaning db)) hreading
    rw [statedWhere, List.map_map, List.map_map] at hmeaning
    rw [ClauseMeans, ← funext (meaning_statedConjunct db),
      ← funext (meaning_reading db σ tableAlias)]
    exact hmeaning.symm

/-- The conditions of the `where` argument of a root field, a relation, an update or a delete are
kept with their meaning exactly when all of them are understood. The clause is a part of the
statement as the compiler builds it; Postgres reads the same one where the names of the catalog,
which a field without selections prints, are identifiers. -/
theorem where_kept_iff (compiler : Compiler) (field : FieldNode) (startIndex : ℕ) (σ : ℕ → Value) :
    (∀ query, compiler.compileRootQuery field startIndex = .ok query →
      Binds σ startIndex query.args →
      (ClauseMeans db σ query.sql.whereClause.1 query.sql.whereClause.2 (field.argument "where") ↔
        whereUnderstood (field.argument "where"))) ∧
    (∀ schema parentTable parentAlias depth query,
      compiler.compileNestedRelation schema parentTable parentAlias startIndex depth field
        = .ok query →
      Binds σ startIndex query.args →
      (ClauseMeans db σ query.sql.whereClause.1 query.sql.whereClause.2 (field.argument "where") ↔
        whereUnderstood (field.argument "where"))) ∧
    (∀ cteName cte rowName conditions,
      compiler.compileMutation cteName field startIndex = .ok cte →
      cte.sql.whereClause = some (rowName, conditions) → Binds σ startIndex cte.args →
      (ClauseMeans db σ rowName conditions (field.argument "where") ↔
        whereUnderstood (field.argument "where"))) := by
  refine ⟨fun query h hbinds => ?_, fun schema parentTable parentAlias depth query h hbinds => ?_,
    fun cteName cte rowName conditions h hclause hbinds => ?_⟩
  · obtain ⟨schema, table, pairs, conditions, orderBy, limit, offset, -, -, -, hpairs, hwhere, -,
      rfl⟩ := compileRootQuery_ok h
    rw [Binds.append_iff, ← (numbered_compileSelections hpairs).next_eq] at hbinds
    exact compileWhere_means_iff db hwhere hbinds.2
  · obtain ⟨relTable, aliasName, arguments, selectionSet⟩ := field
    obtain ⟨-, pairs, conditions, orderBy, limit, offset, hpairs, hwhere, -, rfl⟩ :=
      compileNestedRelation_ok h
    rw [Binds.append_iff, ← (numbered_compileSelections hpairs).next_eq] at hbinds
    exact compileWhere_means_iff db hwhere hbinds.2
  · obtain ⟨argIndex, compiled, hwhere, rfl, hargs⟩ := whereClause_compileMutation h hclause
    exact compileWhere_means_iff db hwhere (hargs hbinds)

/-- `delete_tags(where: {id: filters})`. -/
def deleteTags (filters : GoMap Value) : FieldNode :=
  .mk "delete_tags" "" [("where", .obj [("id", .obj filters)])] []

/-- Its compilation when the only condition is `_gt: 1`. -/
def deletedTags : Compiled MutationCte :=
  ⟨.delete "m0" "public" "tags" [.compare "tags" "id" .gt 1], [.int 1], 2⟩

theorem deleteTags_where_kept :
    (newCompiler [] "").compileMutation "m0" (deleteTags [("_gt", .int 1)]) 1 = .ok deletedTags ∧
      ClauseMeans ⟨fun _ _ _ => none, fun _ : Unit => true⟩ (fun _ => .int 1) "tags"
        [.compare "tags" "id" .gt 1] ((deleteTags [("_gt", .int 1)]).argument "where") :=
  ⟨rfl, ((where_kept_iff _ (newCompiler [] "") (deleteTags [("_gt", .int 1)]) 1 fun _ =>
    .int 1).2.2 "m0" deletedTags "tags" _ rfl rfl rfl).mpr rfl⟩

/-- An operator that the compiler does not know is no error: the delete has one condition less. -/
theorem deleteTags_loses_regex :
    (newCompiler [] "").compileMutation "m0"
        (deleteTags [("_gt", .int 1), ("_regex", .str "^x")]) 1 = .ok deletedTags ∧
      ¬ClauseMeans ⟨fun _ _ _ => none, fun _ : Unit => true⟩ (fun _ => .int 1) "tags"
        [.compare "tags" "id" .gt 1]
        ((deleteTags [("_gt", .int 1), ("_regex", .str "^x")]).argument "where") := by
  refine ⟨rfl, fun hmeans => ?_⟩
  have hlength : 2 = 1 := congrArg List.length hmeans
  cases hlength

end Compiler

/-! ## Qualifiers -/

/-- Words that Postgres does not take for the name of a table unless they are quoted. -/
def reservedWords : List String :=
  ["all", "analyse", "analyze", "and", "any", "array", "as", "asc", "asymmetric", "authorization",
    "binary", "both", "case", "cast", "check", "collate", "collation", "column", "concurrently",
    "constraint", "create", "cross", "current_catalog", "current_date", "current_role",
    "current_schema", "current_time", "current_timestamp", "current_user", "default",
    "deferrable", "desc", "distinct", "do", "else", "end", "except", "false", "fetch", "for",
    "foreign", "freeze", "from", "full", "grant", "group", "having", "ilike", "in", "initially",
    "inner", "intersect", "into", "is", "isnull", "join", "lateral", "leading", "left", "like",
    "limit", "localtime", "localtimestamp", "natural", "not", "notnull", "null", "offset", "on",
    "only", "or", "order", "outer", "overlaps", "placing", "primary", "references", "returning",
    "right", "select", "session_user", "similar", "some", "symmetric", "system_user", "table",
    "tablesample", "then", "to", "trailing", "true", "union", "unique", "user", "using",
    "variadic", "verbose", "when", "where", "window", "with"]

/-- The table that an unquoted word of at most 63 bytes names: its ASCII letters are folded to lower
case, and a reserved word names none. -/
def unquotedName (word : String) : Option String :=
  let folded := word.map Char.toLower
  if folded ∈ reservedWords then none else some folded

/-- The word before the dot of a condition's column. -/
def Condition.qualifier : Condition → Option String
  | compare qualifier _ _ _ | inList qualifier _ _ | isNull qualifier _
  | isNotNull qualifier _ => some qualifier
  | never => none

/-- The triple is compiled to a condition on its column. -/
def mentionsColumn : String × String × Value → Bool
  | (_, "_in", .list (_ :: _)) => true
  | (_, "_is_null", _) => true
  | (_, filterOp, _) => (Compiler.compareOp filterOp).isSome

namespace Compiler

theorem qualifier_compileFilter (tableAlias columnName filterOp : String) (operand : Value)
    (argIndex : ℕ) :
    (compileFilter tableAlias columnName filterOp operand argIndex).sql.filterMap
        Condition.qualifier =
      if mentionsColumn (columnName, filterOp, operand) then [tableAlias] else [] := by
  unfold compileFilter
  split
  · next operator hop =>
    have hmentions : mentionsColumn (columnName, filterOp, operand) := by
      unfold mentionsColumn
      split
      · rfl
      · rfl
      · next heq =>
        cases heq
        rw [hop]
        rfl
    rw [hmentions]
    rfl
  · next hop =>
    by_cases hin : filterOp = "_in"
    · subst hin
      cases operand with
      | list items => cases items <;> rfl
      | _ => rfl
    · by_cases hnull : filterOp = "_is_null"
      · subst hnull
        rw [if_neg hin, if_pos rfl]
        split <;> rfl
      · simp [hin, hnull, mentionsColumn, hop]

/-- Every column that a clause mentions is qualified with the name the clause was compiled for. -/
theorem mem_qualifiers_compileWhere {tableAlias : String} {whereArg : Value} {startIndex : ℕ}
    {conditions : Compiled (List Condition)}
    (h : compileWhere tableAlias whereArg startIndex = .ok conditions) (word : String) :
    (∃ condition ∈ conditions.sql, condition.qualifier = some word) ↔
      word = tableAlias ∧ (whereFilters whereArg).any mentionsColumn := by
  rw [(compileWhere_ok h).2, ← List.mem_filterMap]
  generalize whereFilters whereArg = triples
  clear h
  induction triples generalizing startIndex with
  | nil => simp [compileTriples]
  | cons triple triples ih =>
    simp only [compileTriples, List.filterMap_append, List.mem_append, qualifier_compileFilter, ih,
      List.any_cons, Bool.or_eq_true]
    split
    · next hmentions =>
      rw [hmentions, List.mem_singleton]
      simp only [true_or, and_true, or_iff_left_iff_imp]
      exact fun hrest => hrest.1
    · next hmentions => simp [hmentions]

/-- The columns in the conditions of an update or a delete are those of the table named in it
exactly when that name is in lower case and not reserved, or no condition mentions a column. -/
theorem mutation_columns_resolve_iff (compiler : Compiler) (field : FieldNode)
    (cteName table : String) (argIndex : ℕ) (cte : Compiled MutationCte)
    (conditions : List Condition) (h : compiler.compileMutation cteName field argIndex = .ok cte)
    (hclause : cte.sql.whereClause = some (table, conditions)) :
    (∀ condition ∈ conditions, ∀ word, condition.qualifier = some word →
      unquotedName word = some table) ↔
      (table.map Char.toLower = table ∧ table ∉ reservedWords) ∨
        (whereFilters (field.argument "where")).any mentionsColumn = false := by
  obtain ⟨argIndex, compiled, hwhere, rfl, -⟩ :=
    whereClause_compileMutation (σ := fun _ => Value.null) h hclause
  have hresolves : unquotedName table = some table ↔
      table.map Char.toLower = table ∧ table ∉ reservedWords := by
    unfold unquotedName
    dsimp only
    split
    · next hreserved => simpa using fun hlower : table.map Char.toLower = table =>
      hlower ▸ hreserved
    · next hplain => exact ⟨fun hname => ⟨Option.some.inj hname, Option.some.inj hname ▸ hplain⟩,
        fun hname => congrArg some hname.1⟩
  have hwords := mem_qualifiers_compileWhere hwhere
  rw [← hresolves, ← Bool.not_eq_true]
  constructor
  · intro hall
    by_cases hmentions : (whereFilters (field.argument "where")).any mentionsColumn
    · obtain ⟨condition, hcondition, hword⟩ := (hwords table).mpr ⟨rfl, hmentions⟩
      exact .inl (hall condition hcondition table hword)
    · exact .inr hmentions
  · intro hname condition hcondition word hword
    obtain ⟨rfl, hmentions⟩ := (hwords word).mp ⟨condition, hcondition, hword⟩
    exact hname.resolve_right (not_not_intro hmentions)

theorem deleteTags_columns_resolve :
    (newCompiler [] "").compileMutation "m0" (deleteTags [("_gt", .int 1)]) 1 = .ok deletedTags ∧
      ∀ condition ∈ [Condition.compare "tags" "id" .gt 1], ∀ word,
        condition.qualifier = some word → unquotedName word = some "tags" :=
  ⟨rfl, (mutation_columns_resolve_iff (newCompiler [] "") (deleteTags [("_gt", .int 1)]) "m0" "tags"
    1 deletedTags _ rfl rfl).mpr (.inl ⟨by decide +kernel, by decide +kernel⟩)⟩

/-- `UPDATE "public"."Orders" .. WHERE Orders."id" = $2` asks for a table `orders`, and
`DELETE FROM "public"."user" WHERE user."id" = $1` is no statement. -/
theorem orders_and_user_do_not_resolve :
    (newCompiler [] "").compileMutation "m0" (.mk "update_Orders" ""
        [("_set", .obj [("paid", .bool true)]), ("where", .obj [("id", .int 1)])] []) 1 =
      .ok ⟨.update "m0" "public" "Orders" [("paid", 1)] [.compare "Orders" "id" .eq 2],
        [.bool true, .int 1], 3⟩ ∧
    unquotedName "Orders" = some "orders" ∧
    (newCompiler [] "").compileMutation "m0"
        (.mk "delete_user" "" [("where", .obj [("id", .int 1)])] []) 1 =
      .ok ⟨.delete "m0" "public" "user" [.compare "user" "id" .eq 1], [.int 1], 2⟩ ∧
    unquotedName "user" = none :=
  ⟨rfl, by decide +kernel, rfl, by decide +kernel⟩

end Compiler

end Layr.Graphql
