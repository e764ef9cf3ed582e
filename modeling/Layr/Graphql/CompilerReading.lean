import Layr.Graphql.CompilerNames
import Layr.Graphql.CompilerNumbering

/-!
# A compiled statement says what its operation states

With the arguments in place of its placeholders (`Binds`), a compiled part reads back as the
conjuncts and assignments of its syntax, except for what the compiler drops: operators it has no
case for, keys of an inserted object that the first object does not have, and what is stated where
it never looks, such as below the selections of a mutation. The reading therefore agrees with the
operation exactly when the operation is `understood`.
-/

namespace Layr.Graphql

open Go Lib

variable {columns : List String} {objects : List Value} {tableAlias : String} {argIndex : ℕ}

/-- A list that is partly dropped keeps its length only if nothing is. -/
theorem filterMap_eq_map_iff {α β : Type} {f : α → Option β} {g : α → β} {items : List α} :
    items.filterMap f = items.map g ↔ ∀ item ∈ items, f item = some (g item) := by
  induction items with
  | nil => simp
  | cons item items ih =>
    cases hitem : f item with
    | none =>
      have hlength : (items.filterMap f).length ≤ items.length := List.length_filterMap_le f items
      constructor
      · intro h
        have := congrArg List.length h
        simp [hitem] at this
        omega
      · intro h
        simpa [hitem] using h item (by simp)
    | some result => simp [hitem, ih]

namespace Compiler

variable {compiler : Compiler} {σ : ℕ → Value}

/-! ## Conditions -/

/-- The conjunct the compiler keeps of a triple: none for an operator without a case and for an
`_in` without a list, and a plain `true` or `false` for `_is_null`. -/
def keptConjunct (triple : String × String × Value) : Option Conjunct :=
  let (column, filterOp, operand) := triple
  match compareOp filterOp with
  | some _ => some (.filter column filterOp operand)
  | none =>
    if filterOp = "_in" then
      match operand with
      | .list [] => some .never
      | .list inArray => some (.filter column "_in" (.list inArray))
      | _ => none
    else if filterOp = "_is_null" then
      match operand with
      | .bool true => some (.filter column "_is_null" (.bool true))
      | _ => some (.filter column "_is_null" (.bool false))
    else none

theorem filterOp_of_compareOp {filterOp : String} {operator : CompareOp}
    (h : compareOp filterOp = some operator) : operator.filterOp = filterOp := by
  unfold compareOp at h
  split at h <;> cases h <;> rfl

/-- A conjunct is kept as it was stated exactly when its operator is understood. -/
theorem keptConjunct_eq_stated_iff (triple : String × String × Value) :
    keptConjunct triple = some (statedConjunct triple) ↔ isUnderstood triple := by
  obtain ⟨column, filterOp, operand⟩ := triple
  by_cases hin : filterOp = "_in"
  · subst hin
    cases operand with
    | list inArray => cases inArray <;> simp [keptConjunct, statedConjunct, isUnderstood, compareOp,
        Value.asList]
    | _ => simp [keptConjunct, isUnderstood, compareOp, Value.asList]
  · have hstated : statedConjunct (column, filterOp, operand) =
      .filter column filterOp operand := by
      simp [statedConjunct, hin]
    rw [hstated]
    by_cases hnull : filterOp = "_is_null"
    · subst hnull
      cases operand with
      | bool isNull => cases isNull <;> simp [keptConjunct, isUnderstood, compareOp]
      | _ => simp [keptConjunct, isUnderstood, compareOp]
    · have hunderstood : isUnderstood (column, filterOp, operand) =
          (compareOp filterOp).isSome := by
        simp [isUnderstood, hnull]
      rw [hunderstood]
      cases hop : compareOp filterOp with
      | none => simp [keptConjunct, hop, hin, hnull]
      | some => simp [keptConjunct, hop]

@[simp]
theorem resolveColumn_self (rowName column : String) :
    resolveColumn rowName rowName column = column := if_pos rfl

theorem reading_compileFilter {columnName filterOp : String} {conditionValue : Value}
    (h : Binds σ argIndex
      (compileFilter tableAlias columnName filterOp conditionValue argIndex).args) :
    (compileFilter tableAlias columnName filterOp conditionValue argIndex).sql.map
      (Condition.reading σ tableAlias) =
        (keptConjunct (columnName, filterOp, conditionValue)).toList := by
  cases hop : compareOp filterOp with
  | some =>
    simp only [compileFilter, hop, Binds.cons_iff] at h
    simp [compileFilter, keptConjunct, hop, Condition.reading, h.1, filterOp_of_compareOp hop]
  | none =>
    simp only [compileFilter, hop] at h
    simp only [compileFilter, keptConjunct, hop]
    by_cases hin : filterOp = "_in"
    · simp only [if_pos hin] at h ⊢
      cases conditionValue with
      | list inArray =>
        cases inArray with
        | nil => rfl
        | cons first inArray =>
          have hbound : (List.range' argIndex (first :: inArray).length).map σ =
            first :: inArray := h
          simp only [List.map_cons, List.map_nil, Condition.reading, hbound, resolveColumn_self,
            Option.toList_some]
      | _ => rfl
    · by_cases hnull : filterOp = "_is_null"
      · simp only [if_neg hin, if_pos hnull]
        split <;> simp [Condition.reading]
      · simp [hin, hnull]

theorem reading_compileTriples {triples : List (String × String × Value)}
    (h : Binds σ argIndex (compileTriples tableAlias triples argIndex).args) :
    (compileTriples tableAlias triples argIndex).sql.map (Condition.reading σ tableAlias) =
      triples.filterMap keptConjunct := by
  induction triples generalizing argIndex with
  | nil => rfl
  | cons triple triples ih =>
    simp only [compileTriples, Binds.append_iff] at h ⊢
    rw [← (numbered_compileFilter _ _ _ _ _).next_eq] at h
    rw [List.map_append, reading_compileFilter h.1, ih h.2, List.filterMap_cons]
    cases keptConjunct triple <;> rfl

/-- A clause says what its `where` argument states when every operator in it is understood. -/
theorem reading_compileWhere {whereArg : Value} {startIndex : ℕ}
    {conditions : Compiled (List Condition)}
    (h : compileWhere tableAlias whereArg startIndex = .ok conditions)
    (hbinds : Binds σ startIndex conditions.args) :
    conditions.sql.map (Condition.reading σ tableAlias) = statedWhere whereArg ↔
      whereUnderstood whereArg := by
  have hkept : conditions.sql.map (Condition.reading σ tableAlias) =
      (whereFilters whereArg).filterMap keptConjunct := by
    rw [(compileWhere_ok h).2] at hbinds ⊢
    exact reading_compileTriples hbinds
  rw [hkept, statedWhere, filterMap_eq_map_iff, whereUnderstood, List.all_eq_true]
  exact forall₂_congr fun triple _ => keptConjunct_eq_stated_iff triple

/-! ## Queries -/

/-- A block says what its field states when its conditions and relations do and nothing else is
stated. -/
theorem reading_block_iff {name aliasName : String} {arguments : GoMap Value}
    {selectionSet : List FieldNode} {conjuncts : List Conjunct}
    {relations : List (String × Reading)}
    (hwhere : conjuncts = statedWhere ((arguments.get "where").getD .null) ↔
      whereUnderstood ((arguments.get "where").getD .null))
    (hrelations : relations = relationReadings selectionSet ↔
      relationsUnderstood selectionSet) :
    Reading.mk ⟨conjuncts, [], []⟩ relations [] =
        (FieldNode.mk name aliasName arguments selectionSet).reading ↔
      (FieldNode.mk name aliasName arguments selectionSet).understood := by
  rw [FieldNode.reading, FieldNode.understood, Reading.mk.injEq, FieldNode.stated, Stated.mk.injEq]
  simp only [FieldNode.argument, FieldNode.arguments, hwhere, hrelations, Bool.and_eq_true,
    List.isEmpty_iff, @eq_comm _ [], and_assoc]

mutual

theorem reading_compileNestedRelation {schema parentTable parentAlias : String}
    {startIndex depth : ℕ} : ∀ {field : FieldNode} {query : Compiled Select},
    compiler.compileNestedRelation schema parentTable parentAlias startIndex depth field
      = .ok query →
    Binds σ startIndex query.args →
    (query.sql.reading σ = field.reading ↔ field.understood)
  | .mk relTable aliasName arguments selectionSet, query, h, hbinds => by
    obtain ⟨-, pairs, conditions, orderBy, limit, offset, hpairs, hwhere, -, rfl⟩ :=
      compileNestedRelation_ok h
    rw [Binds.append_iff, ← (numbered_compileSelections hpairs).next_eq] at hbinds
    rw [Select.reading]
    exact reading_block_iff (reading_compileWhere hwhere hbinds.2)
      (reading_compileSelections hpairs hbinds.1)

theorem reading_compileSelections {schema table tableAlias : String} {argIndex depth : ℕ} :
    ∀ {subFields : List FieldNode} {pairs : Compiled (List SelectPair)},
    compiler.compileSelections schema table tableAlias argIndex depth subFields = .ok pairs →
    Binds σ argIndex pairs.args →
    (pairReadings σ pairs.sql = relationReadings subFields ↔ relationsUnderstood subFields)
  | [], pairs, h, hbinds => by
    cases h
    simp [pairReadings, relationReadings, relationsUnderstood]
  | subField :: subFields, pairs, h, hbinds => by
    rw [relationReadings, relationsUnderstood]
    obtain ⟨-, ⟨hempty, -, rest, hrest, rfl⟩ | ⟨hempty, query, rest, hquery, hrest, rfl⟩⟩ :=
      compileSelections_cons_ok h
    · rw [if_pos hempty, pairReadings, hempty, Bool.true_or, Bool.true_and]
      exact reading_compileSelections hrest hbinds
    · rw [Binds.append_iff, ← (numbered_compileNestedRelation hquery).next_eq] at hbinds
      rw [if_neg (by simp [hempty]), pairReadings, hempty, Bool.false_or, Bool.and_eq_true,
        List.cons.injEq, Prod.mk.injEq, reading_compileNestedRelation hquery hbinds.1,
        reading_compileSelections hrest hbinds.2]
      simp

end

theorem pairReadings_defaultPairs (schema table tableAlias : String) :
    pairReadings σ (compiler.defaultPairs schema table tableAlias) = [] :=
  defaultPairs_induction (P := fun pairs => pairReadings σ pairs = []) rfl (fun _ ih => ih)
    fun _ _ _ _ _ ih => ih

theorem reading_compileRootQuery {fieldNode : FieldNode} {startIndex : ℕ}
    {query : Compiled Select} (h : compiler.compileRootQuery fieldNode startIndex = .ok query)
    (hbinds : Binds σ startIndex query.args) :
    query.sql.reading σ = fieldNode.reading ↔ fieldNode.understood := by
  obtain ⟨schema, table, pairs, conditions, orderBy, limit, offset, -, -, -, hpairs, hwhere, -,
    rfl⟩ := compileRootQuery_ok h
  rw [Binds.append_iff, ← (numbered_compileSelections hpairs).next_eq] at hbinds
  have hrelations := reading_compileSelections hpairs hbinds.1
  have hdefault : pairReadings σ
      (if pairs.sql.isEmpty then compiler.defaultPairs schema table "t0" else pairs.sql) =
        pairReadings σ pairs.sql := by
    split
    · rename_i hempty
      rw [pairReadings_defaultPairs, List.isEmpty_iff.mp hempty, pairReadings]
    · rfl
  obtain ⟨name, aliasName, arguments, selectionSet⟩ := fieldNode
  rw [Select.reading, hdefault]
  exact reading_block_iff (reading_compileWhere hwhere hbinds.2) hrelations

theorem reading_compileRootQueries {rootFields : List FieldNode}
    {parts : Compiled (List (String × Select))}
    (h : compiler.compileRootQueries rootFields argIndex = .ok parts)
    (hbinds : Binds σ argIndex parts.args) :
    (parts.sql.map fun field => (field.1, field.2.reading σ)) =
        (rootFields.map fun field => (field.responseKey, field.reading)) ↔
      rootFields.all FieldNode.understood := by
  induction rootFields generalizing argIndex parts with
  | nil =>
    cases h
    simp
  | cons rootField rootFields ih =>
    obtain ⟨query, rest, hquery, hrest, rfl⟩ := compileRootQueries_cons_ok h
    rw [Binds.append_iff, ← (numbered_compileRootQuery hquery).next_eq] at hbinds
    rw [List.map_cons, List.map_cons, List.all_cons, Bool.and_eq_true, List.cons.injEq,
      Prod.mk.injEq, reading_compileRootQuery hquery hbinds.1, ih hrest hbinds.2]
    simp

/-! ## Mutations -/

theorem reading_insertRows {rows : Compiled (List (List ℕ))}
    (h : insertRows columns objects argIndex = .ok rows) (hbinds : Binds σ argIndex rows.args) :
    (rows.sql.map fun row => columns.zip (row.map σ)) = objects.map statedRow ↔
      ∀ object ∈ objects, Strings.sort (GoMap.keys (object.asMap.getD [])) = columns := by
  induction objects generalizing argIndex rows with
  | nil =>
    cases h
    simp
  | cons object objects ih =>
    obtain ⟨objectMap, rest, rfl, hrest, rfl⟩ := insertRows_cons_ok h
    rw [Binds.append_iff, List.length_map] at hbinds
    have hrow := hbinds.1
    rw [Binds, List.length_map] at hrow
    rw [List.map_cons, List.map_cons, List.cons.injEq, List.forall_mem_cons, hrow,
      ih hrest hbinds.2, statedRow]
    exact and_congr_left' (GoMap.zip_get_eq_sorted_iff columns objectMap .null)

theorem reading_compileSets {entries : List (String × Value)} {sets : Compiled (List (String × ℕ))}
    (h : compileSets entries argIndex = .ok sets) (hbinds : Binds σ argIndex sets.args) :
    (sets.sql.map fun entry => (entry.1, σ entry.2)) = entries := by
  induction entries generalizing argIndex sets with
  | nil =>
    cases h
    rfl
  | cons entry entries ih =>
    obtain ⟨-, rest, hrest, rfl⟩ := compileSets_cons_ok h
    rw [Binds.cons_iff] at hbinds
    rw [List.map_cons, hbinds.1, ih hrest hbinds.2]

/-- A mutation says what its field states when the field is understood. -/
theorem reading_compileMutation {cteName : String} {mutationField : FieldNode}
    {cte : Compiled MutationCte}
    (h : compiler.compileMutation cteName mutationField argIndex = .ok cte)
    (hbinds : Binds σ argIndex cte.args) :
    cte.sql.reading σ = mutationField.mutationReading ↔
      mutationField.mutationUnderstood := by
  unfold FieldNode.mutationReading FieldNode.mutationUnderstood FieldNode.stated
  simp only [Bool.and_eq_true, List.isEmpty_iff]
  obtain ⟨hinsert, h⟩ | ⟨hinsert, hupdate, h⟩ | ⟨hinsert, hupdate, -, h⟩ := compileMutation_ok h
  · obtain ⟨schema, table, recordMap, objects, columns, rows, -, -, hobjects, hcolumns, hrows,
      rfl⟩ := compileInsert_ok h
    obtain ⟨rfl, -⟩ := insertColumns_ok hcolumns
    have hsql := reading_insertRows hrows hbinds
    have hfirst : (Value.obj recordMap).asMap = some recordMap := rfl
    rw [if_pos hinsert, hobjects, MutationCte.reading, MutationReading.mk.injEq, Stated.mk.injEq,
      Value.asList, Option.getD_some, hsql]
    simp [uniformRows, hfirst, @eq_comm _ [], and_assoc]
  · obtain ⟨schema, table, updateMap, sets, conditions, -, -, hset, hsets, hwhere, rfl⟩ :=
      compileUpdate_ok h
    rw [Binds.append_iff, ← (numbered_compileSets hsets).next_eq] at hbinds
    rw [if_neg (by simp [hinsert]), hset, MutationCte.reading, MutationReading.mk.injEq,
      Stated.mk.injEq, reading_compileSets hsets hbinds.1, reading_compileWhere hwhere hbinds.2]
    simp [Value.asMap, hupdate, @eq_comm _ []]
  · obtain ⟨schema, table, conditions, -, -, hwhere, rfl⟩ := compileDelete_ok h
    rw [if_neg (by simp [hinsert]), MutationCte.reading, MutationReading.mk.injEq,
      Stated.mk.injEq, reading_compileWhere hwhere hbinds]
    simp [hupdate, @eq_comm _ [], and_assoc]

theorem reading_compileMutations {fields : List FieldNode} {mutationIndex : ℕ}
    {parts : Compiled (List MutationCte × List MutationResult)}
    (h : compiler.compileMutations fields mutationIndex argIndex = .ok parts)
    (hbinds : Binds σ argIndex parts.args) :
    parts.sql.1.map (MutationCte.reading σ) = fields.map FieldNode.mutationReading ↔
      fields.all FieldNode.mutationUnderstood := by
  induction fields generalizing mutationIndex argIndex parts with
  | nil =>
    cases h
    simp
  | cons mutationField fields ih =>
    obtain ⟨cte, rest, hcte, hrest, rfl⟩ := compileMutations_cons_ok h
    rw [Binds.append_iff, ← (numbered_compileMutation hcte).next_eq] at hbinds
    rw [List.map_cons, List.map_cons, List.all_cons, Bool.and_eq_true, List.cons.injEq,
      reading_compileMutation hcte hbinds.1, ih hrest hbinds.2]

/-! ## Operations -/

/-- **Argument binding.** Over plain names the text of a compiled operation holds identifiers
between its own pieces, and its placeholders are `$1` to `$n`, each printed once, for its `n`
arguments; and the statement with the arguments in place says the conjuncts and assignments the
operation states, wherever they stand, exactly when the operation is understood. -/
theorem compile_reading_iff (compiler : Compiler) (hclean : compiler.Clean)
    (operationNode : OperationNode) (query : SQLQuery)
    (h : compiler.compile operationNode = .ok query) :
    (∀ name ∈ names query.statement.tokens, isIdentifierText name) ∧
      placeholders query.statement.tokens = List.range' 1 query.args.length ∧
      (query.reading = operationNode.reading ↔ operationNode.understood) := by
  refine ⟨cleanTokens_compile hclean h, placeholders_compile h, ?_⟩
  unfold SQLQuery.reading OperationNode.reading OperationNode.understood
  obtain ⟨htype, parts, hparts, rfl⟩ | ⟨htype, parts, hparts, rfl⟩ := compile_ok h
  · rw [htype, Statement.reading, OperationReading.query.injEq]
    exact reading_compileRootQueries hparts (Binds.lookup 1 parts.args .null)
  · rw [htype, Statement.reading, OperationReading.mutation.injEq]
    exact reading_compileMutations hparts (Binds.lookup 1 parts.args .null)

/-- `mutation { update_tags(where: {id: {_in: [1, 2]}, post_id: 3}, _set: {label: "x"}) { id } }` -/
def updateTagsOperation : OperationNode :=
  { type := .mutation, name := "", cacheTTL := 0, cacheKeySuffix := ""
    selectionSet := [.mk "update_tags" ""
      [("where", .obj [("id", .obj [("_in", .list [.int 1, .int 2])]), ("post_id", .int 3)]),
        ("_set", .obj [("label", .str "x")])]
      [.mk "id" "" [] []]] }

/-- Its compilation. -/
def updateTagsQuery : SQLQuery :=
  { statement := .mutation
      [.update "m0" "public" "tags" [("label", 1)]
        [.inList "tags" "id" [2, 3], .compare "tags" "post_id" .eq 4]]
      [⟨"update_tags", "m0", [("id", "id")]⟩]
    args := [.str "x", .int 1, .int 2, .int 3] }

/-- An operation that is understood: its four arguments are bound to `$1` to `$4`. -/
theorem updateTags_reading :
    (newCompiler tagsCatalog "").compile updateTagsOperation = .ok updateTagsQuery ∧
      placeholders updateTagsQuery.statement.tokens = [1, 2, 3, 4] ∧
      updateTagsQuery.reading = updateTagsOperation.reading := by
  have h : (newCompiler tagsCatalog "").compile updateTagsOperation = .ok updateTagsQuery := rfl
  obtain ⟨-, hplaceholders, hreading⟩ := compile_reading_iff (newCompiler tagsCatalog "")
    tagsCatalog_clean updateTagsOperation updateTagsQuery h
  exact ⟨h, hplaceholders, hreading.mpr rfl⟩

/-- `mutation { insert_tags(objects: [{id: 1}, {id: 2, label: "x"}]) { id } }`. -/
def insertTagsOperation : OperationNode :=
  { type := .mutation, name := "", cacheTTL := 0, cacheKeySuffix := ""
    selectionSet := [.mk "insert_tags" ""
      [("objects", .list [.obj [("id", .int 1)], .obj [("id", .int 2), ("label", .str "x")]])]
      [.mk "id" "" [] []]] }

/-- Its compilation. -/
def insertTagsQuery : SQLQuery :=
  { statement := .mutation [.insert "m0" "public" "tags" ["id"] [[1], [2]]]
      [⟨"insert_tags", "m0", [("id", "id")]⟩]
    args := [.int 1, .int 2] }

/-- The label of the second object is not inserted: no argument holds its value, and the rows
the statement says are not the rows the operation states. -/
theorem insertTags_drops_label :
    (newCompiler [] "").compile insertTagsOperation = .ok insertTagsQuery ∧
      insertTagsQuery.reading = .mutation [⟨⟨[], [[("id", .int 1)], [("id", .int 2)]], []⟩, []⟩] ∧
      insertTagsOperation.reading =
        .mutation [⟨⟨[], [[("id", .int 1)], [("id", .int 2), ("label", .str "x")]], []⟩, []⟩] ∧
      insertTagsQuery.reading ≠ insertTagsOperation.reading := by
  refine ⟨rfl, rfl, rfl, ?_⟩
  intro h
  change OperationReading.mutation [⟨⟨[], [[("id", .int 1)], [("id", .int 2)]], []⟩, []⟩] =
    .mutation [⟨⟨[], [[("id", .int 1)], [("id", .int 2), ("label", .str "x")]], []⟩, []⟩] at h
  simp at h

/-! ## Inserts -/

/-- The insert comes as far as its rows: the table passes its checks, and the first object is one,
with valid columns. -/
def reachesRows (compiler : Compiler) (name : String) (field : FieldNode) : Bool :=
  let (schema, table) :=
    compiler.catalog.qualify compiler.defaultSchema (Strings.trimPrefix name "insert_")
  match compiler.checkTable schema table " in insert mutation", field.argument "objects" with
  | .ok (), .list (.obj recordMap :: _) => (GoMap.keys recordMap).all isValidIdentifier
  | _, _ => false

/-- The elements of `objects` are objects, all with the keys of the first one. -/
def sameKeys (objects : List Value) : Bool :=
  objects.all (fun object => object.asMap.isSome) && uniformRows objects

theorem insertRows_error_iff :
    insertRows columns objects argIndex = .error .notAnObject ↔
      objects.all (fun object => object.asMap.isSome) = false := by
  induction objects generalizing argIndex with
  | nil => simp [insertRows]
  | cons object objects ih =>
    cases object with
    | obj =>
      have hrest := @ih (argIndex + columns.length)
      rw [List.all_cons, Value.asMap, Option.isSome_some, Bool.true_and, ← hrest, insertRows]
      cases insertRows columns objects (argIndex + columns.length) with
      | error e => exact Iff.rfl
      | ok rest =>
        constructor
        · intro h
          cases h
        · intro h
          cases h
    | _ => simp [insertRows, Value.asMap]

theorem eq_notAnObject_of_insertRows {e : CompileError}
    (h : insertRows columns objects argIndex = .error e) : e = .notAnObject := by
  induction objects generalizing argIndex with
  | nil => cases h
  | cons object objects ih =>
    cases object with
    | obj =>
      rw [insertRows] at h
      cases hrest : insertRows columns objects (argIndex + columns.length) with
      | error e' =>
        rw [hrest] at h
        cases h
        exact ih hrest
      | ok rest =>
        rw [hrest] at h
        cases h
    | _ =>
      cases h
      rfl

/-- What is left to do behind the checks of an insert. -/
theorem compileInsert_of_reachesRows {name : String} {field : FieldNode}
    (h : compiler.reachesRows name field) (cteName : String) (argIndex : ℕ) :
    ∃ schema table recordMap objects, field.argument "objects" = .list (.obj recordMap :: objects) ∧
      compiler.compileInsert cteName name field argIndex =
        (insertRows (Strings.sort (GoMap.keys recordMap)) (.obj recordMap :: objects)
          argIndex).bind fun rows => .ok ⟨.insert cteName schema table
            (Strings.sort (GoMap.keys recordMap)) rows.sql, rows.args, rows.next⟩ := by
  unfold reachesRows at h
  rcases hq : compiler.catalog.qualify compiler.defaultSchema (Strings.trimPrefix name "insert_")
    with ⟨schema, table⟩
  rw [hq] at h
  dsimp only at h
  split at h
  · next recordMap objects hcheck hobjects =>
    have hcolumns : insertColumns recordMap = .ok (Strings.sort (GoMap.keys recordMap)) := by
      have hfind : (GoMap.keys recordMap).find? (fun column => isValidIdentifier column = false)
          = none := by
        rw [List.find?_eq_none]
        intro column hcolumn
        simp [List.all_eq_true.mp h column hcolumn]
      rw [insertColumns, hfind]
    refine ⟨schema, table, recordMap, objects, hobjects, ?_⟩
    unfold compileInsert
    rw [hq]
    dsimp only
    rw [hcheck, hobjects]
    dsimp only [Except.bind, bind]
    rw [hcolumns]
  · cases h

/-- An insert that fails a check does not panic. -/
theorem compileInsert_of_not_reachesRows {name : String} {field : FieldNode}
    (h : compiler.reachesRows name field = false) (cteName : String) (argIndex : ℕ) :
    ∃ e, e ≠ .notAnObject ∧ compiler.compileInsert cteName name field argIndex = .error e := by
  unfold reachesRows at h
  unfold compileInsert
  dsimp only at h ⊢
  cases hcheck : compiler.checkTable _ _ " in insert mutation" with
  | error e =>
    refine ⟨e, ?_, rfl⟩
    rintro rfl
    unfold checkTable at hcheck
    split_ifs at hcheck <;> cases hcheck
  | ok u =>
    rw [hcheck] at h
    dsimp only [Except.bind, bind]
    split
    · next recordMap objects hobjects =>
      rw [hobjects] at h
      have hcolumns : ∃ column, insertColumns recordMap = .error (.invalidInsertColumn column) := by
        unfold insertColumns
        split
        · next column hfind => exact ⟨column, rfl⟩
        · next hfind =>
          have hall : (GoMap.keys recordMap).all isValidIdentifier := by
            refine List.all_eq_true.mpr fun column hcolumn => ?_
            simpa using List.find?_eq_none.mp hfind column hcolumn
          exact absurd hall (by simp [h])
      obtain ⟨column, hcolumns⟩ := hcolumns
      exact ⟨.invalidInsertColumn column, by simp, by rw [hcolumns]⟩
    · exact ⟨_, by simp, rfl⟩
    · exact ⟨_, by simp, rfl⟩

/-- An insert does not panic, and each of its rows assigns the entries of its object and nothing
else, exactly when a check fails before the rows are made or the objects have the same keys. -/
theorem insert_faithful_iff (compiler : Compiler) (cteName name : String) (field : FieldNode)
    (argIndex : ℕ) :
    (compiler.compileInsert cteName name field argIndex ≠ .error .notAnObject ∧
      ∀ cte, compiler.compileInsert cteName name field argIndex = .ok cte →
        ∀ σ, Binds σ argIndex cte.args → (cte.sql.reading σ).rows =
          ((field.argument "objects").asList.getD []).map statedRow) ↔
      (compiler.reachesRows name field →
        sameKeys ((field.argument "objects").asList.getD [])) := by
  cases hreaches : compiler.reachesRows name field with
  | false =>
    obtain ⟨e, hne, herror⟩ := compileInsert_of_not_reachesRows hreaches cteName argIndex
    rw [herror]
    refine ⟨fun _ h => (by cases h), fun _ => ⟨fun h => hne (Except.error.inj h), fun _ h => ?_⟩⟩
    cases h
  | true =>
    obtain ⟨schema, table, recordMap, objects, hobjects, hinsert⟩ :=
      compileInsert_of_reachesRows hreaches cteName argIndex
    have hfirst : uniformRows (.obj recordMap :: objects) ↔
        ∀ object ∈ Value.obj recordMap :: objects,
          Strings.sort (GoMap.keys (object.asMap.getD [])) =
            Strings.sort (GoMap.keys recordMap) := by
      have hmap : (Value.obj recordMap).asMap = some recordMap := rfl
      simp [uniformRows, hmap]
    rw [hinsert, hobjects, Value.asList, Option.getD_some, sameKeys, Bool.and_eq_true, hfirst]
    cases hrows : insertRows (Strings.sort (GoMap.keys recordMap)) (.obj recordMap :: objects)
        argIndex with
    | error e =>
      obtain rfl := eq_notAnObject_of_insertRows hrows
      rw [insertRows_error_iff.mp hrows]
      exact ⟨fun h => absurd rfl h.1, fun h => absurd (h rfl).1 (by decide)⟩
    | ok rows =>
      have hobjs : (Value.obj recordMap :: objects).all
          (fun object => object.asMap.isSome) := by
        rw [← Bool.not_eq_false, ← insertRows_error_iff, hrows]
        rintro ⟨⟩
      constructor
      · intro h _
        have hbinds := Binds.lookup argIndex rows.args .null
        exact ⟨hobjs, (reading_insertRows hrows hbinds).mp (h.2 _ rfl _ hbinds)⟩
      · intro h
        refine ⟨(by rintro ⟨⟩), ?_⟩
        rintro _ ⟨⟩ σ hbinds
        exact (reading_insertRows hrows hbinds).mpr (h rfl).2

/-- `insert_tags(objects: ..)`. -/
def insertTags (objects : List Value) : FieldNode :=
  .mk "insert_tags" "" [("objects", .list objects)] []

/-- A second element that is a number panics, and a label that the second object does not have is
set to null. -/
theorem insertTags_panics_and_writes_null :
    (newCompiler [] "").compileInsert "m0" "insert_tags"
        (insertTags [.obj [("id", .int 1)], .int 2]) 1 = .error .notAnObject ∧
      (newCompiler [] "").compileInsert "m0" "insert_tags"
        (insertTags [.obj [("id", .int 1), ("label", .str "x")], .obj [("id", .int 2)]]) 1 =
          .ok ⟨.insert "m0" "public" "tags" ["id", "label"] [[1, 2], [3, 4]],
            [.int 1, .str "x", .int 2, .null], 5⟩ :=
  ⟨rfl, rfl⟩

end Compiler
end Layr.Graphql
