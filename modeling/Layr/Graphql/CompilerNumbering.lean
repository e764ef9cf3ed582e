import Layr.Lib.Numbering
import Layr.Graphql.CompilerInversion
import Layr.Graphql.SqlTokens

/-!
# Placeholder numbers of compiled statements

Every compiled part is `Numbered`: its placeholders count up from the number it was started
with, one for each of its arguments and in the order of the printed text, and it hands on the
first free number. Siblings and nested relations compose by `Numbered.append`.
-/

namespace Layr.Graphql

open Go Lib

/-! ## Placeholders of the clauses -/

/-- The placeholders of the conjuncts of a clause. -/
def conditionHoles (conditions : List Condition) : List ℕ :=
  conditions.flatMap fun condition => placeholders condition.tokens

@[simp]
theorem conditionHoles_append (conditions conditions' : List Condition) :
    conditionHoles (conditions ++ conditions') =
      conditionHoles conditions ++ conditionHoles conditions' :=
  List.flatMap_append

@[simp]
theorem placeholders_columnTokens (qualifier column : String) :
    placeholders (columnTokens qualifier column) = [] := rfl

@[simp]
theorem placeholders_tableTokens (schema table : String) :
    placeholders (tableTokens schema table) = [] := rfl

theorem placeholders_joinPlaceholders (separator : String) (indices : List ℕ) :
    placeholders (joinTokens separator (indices.map fun index => [.placeholder index])) =
      indices := by
  rw [placeholders_joinTokens]
  induction indices with
  | nil => rfl
  | cons index indices ih => simpa using ih

@[simp]
theorem placeholders_conditionsTokens (conditions : List Condition) :
    placeholders (conditionsTokens conditions) = conditionHoles conditions := by
  rw [conditionsTokens, placeholders_joinTokens, List.flatMap_map, conditionHoles]

@[simp]
theorem placeholders_orderByTokens (terms : List OrderTerm) :
    placeholders (orderByTokens terms) = [] := by
  unfold orderByTokens
  split
  · rfl
  · rw [placeholders_text, placeholders_joinTokens, List.flatMap_map]
    simp [OrderTerm.tokens]

@[simp]
theorem placeholders_whereTokens (join : Option JoinCondition) (conditions : List Condition) :
    placeholders (whereTokens join conditions) = conditionHoles conditions := by
  have hjoin : ∀ join : JoinCondition, placeholders join.tokens = [] := fun _ => rfl
  unfold whereTokens
  split
  · rfl
  · simp
  · simp [hjoin, conditionHoles]
  · simp [hjoin]

/-- A block prints its pairs before its conditions. -/
theorem placeholders_selectTokens (pairs : List SelectPair) (schema table tableAlias : String)
    (join : Option JoinCondition) (conditions : List Condition) (orderBy : List OrderTerm)
    (limit offset : Option ℤ) :
    placeholders (Select.mk pairs schema table tableAlias join conditions orderBy limit
      offset).tokens = (pairsTokens pairs).flatMap placeholders ++ conditionHoles conditions := by
  rw [Select.tokens]
  simp [placeholders_joinTokens]

namespace Compiler

variable {compiler : Compiler}

/-! ## Conditions -/

/-- A compiled clause is numbered from `start` on. -/
def ClauseNumbered (start : ℕ) (clause : Compiled (List Condition)) : Prop :=
  Numbered start (conditionHoles clause.sql) clause.args clause.next

theorem numbered_compileFilter (tableAlias columnName filterOp : String) (conditionValue : Value)
    (argIndex : ℕ) :
    ClauseNumbered argIndex
      (compileFilter tableAlias columnName filterOp conditionValue argIndex) := by
  unfold compileFilter
  split
  · exact Numbered.range argIndex [conditionValue]
  · split
    · split
      · exact Numbered.nil argIndex
      · rename_i inArray _
        have hholes : conditionHoles
            [.inList tableAlias columnName (List.range' argIndex inArray.length)] =
              List.range' argIndex inArray.length := by
          simp [conditionHoles, Condition.tokens, placeholders_joinPlaceholders]
        rw [ClauseNumbered, hholes]
        exact Numbered.range argIndex inArray
      · exact Numbered.nil argIndex
    · split
      · split <;> exact Numbered.nil argIndex
      · exact Numbered.nil argIndex

theorem numbered_compileWhere {tableAlias : String} {whereArg : Value} {startIndex : ℕ}
    {conditions : Compiled (List Condition)}
    (h : compileWhere tableAlias whereArg startIndex = .ok conditions) :
    ClauseNumbered startIndex conditions := by
  rw [(compileWhere_ok h).2]
  generalize whereFilters whereArg = triples
  clear h
  induction triples generalizing startIndex with
  | nil => exact Numbered.nil startIndex
  | cons triple triples ih =>
    simp only [ClauseNumbered, compileTriples, conditionHoles_append]
    exact (numbered_compileFilter _ _ _ _ _).append ih

/-! ## Queries -/

mutual

theorem numbered_compileNestedRelation {schema parentTable parentAlias : String}
    {startIndex depth : ℕ} : ∀ {field : FieldNode} {query : Compiled Select},
    compiler.compileNestedRelation schema parentTable parentAlias startIndex depth field
      = .ok query →
    Numbered startIndex (placeholders query.sql.tokens) query.args query.next
  | .mk relTable aliasName arguments selectionSet, query, h => by
    obtain ⟨-, pairs, conditions, orderBy, limit, offset, hpairs, hwhere, -, rfl⟩ :=
      compileNestedRelation_ok h
    simp only [placeholders_selectTokens]
    exact (numbered_compileSelections hpairs).append (numbered_compileWhere hwhere)

theorem numbered_compileSelections {schema table tableAlias : String} {argIndex depth : ℕ} :
    ∀ {subFields : List FieldNode} {pairs : Compiled (List SelectPair)},
    compiler.compileSelections schema table tableAlias argIndex depth subFields = .ok pairs →
    Numbered argIndex ((pairsTokens pairs.sql).flatMap placeholders) pairs.args pairs.next
  | [], pairs, h => by
    cases h
    exact Numbered.nil argIndex
  | subField :: subFields, pairs, h => by
    obtain ⟨-, ⟨-, -, rest, hrest, rfl⟩ | ⟨-, query, rest, hquery, hrest, rfl⟩⟩ :=
      compileSelections_cons_ok h
    · have hnumbered := numbered_compileSelections hrest
      simpa [pairsTokens, SelectPair.tokens] using hnumbered
    · have hholes : placeholders (SelectPair.nested subField.responseKey query.sql).tokens =
          placeholders query.sql.tokens := by
        rw [SelectPair.tokens]
        simp
      simp only [pairsTokens, List.flatMap_cons, hholes]
      exact (numbered_compileNestedRelation hquery).append (numbered_compileSelections hrest)

end

/-- The default pairs of a root field have no placeholders. -/
theorem placeholders_defaultPairs (schema table tableAlias : String) :
    (pairsTokens (compiler.defaultPairs schema table tableAlias)).flatMap placeholders = [] :=
  defaultPairs_induction (P := fun pairs => (pairsTokens pairs).flatMap placeholders = []) rfl
    (fun _ ih => ih) fun _ _ _ _ _ ih => ih

theorem numbered_compileRootQuery {fieldNode : FieldNode} {startIndex : ℕ}
    {query : Compiled Select}
    (h : compiler.compileRootQuery fieldNode startIndex = .ok query) :
    Numbered startIndex (placeholders query.sql.tokens) query.args query.next := by
  obtain ⟨schema, table, pairs, conditions, orderBy, limit, offset, -, -, -, hpairs, hwhere, -,
    rfl⟩ := compileRootQuery_ok h
  have hnumbered := numbered_compileSelections hpairs
  simp only [placeholders_selectTokens]
  refine Numbered.append ?_ (numbered_compileWhere hwhere)
  split
  · rename_i hempty
    rw [List.isEmpty_iff.mp hempty] at hnumbered
    rwa [placeholders_defaultPairs]
  · exact hnumbered

variable {argIndex : ℕ}

theorem numbered_compileRootQueries {rootFields : List FieldNode}
    {parts : Compiled (List (String × Select))}
    (h : compiler.compileRootQueries rootFields argIndex = .ok parts) :
    Numbered argIndex (placeholders (Statement.query parts.sql).tokens) parts.args parts.next := by
  induction rootFields generalizing argIndex parts with
  | nil =>
    cases h
    exact Numbered.nil argIndex
  | cons rootField rootFields ih =>
    obtain ⟨query, rest, hquery, hrest, rfl⟩ := compileRootQueries_cons_ok h
    have hnumbered := (numbered_compileRootQuery hquery).append (ih hrest)
    simpa [Statement.tokens, placeholders_joinTokens, List.flatMap_map] using hnumbered

/-! ## Mutations -/

theorem numbered_insertRows {columns : List String} {objects : List Value}
    {rows : Compiled (List (List ℕ))} (h : insertRows columns objects argIndex = .ok rows) :
    Numbered argIndex rows.sql.flatten rows.args rows.next := by
  induction objects generalizing argIndex rows with
  | nil =>
    cases h
    exact Numbered.nil argIndex
  | cons object objects ih =>
    obtain ⟨objectMap, rest, rfl, hrest, rfl⟩ := insertRows_cons_ok h
    have hrow := Numbered.range argIndex
      (columns.map fun column => (GoMap.get column objectMap).getD Value.null)
    rw [List.length_map] at hrow
    exact hrow.append (ih hrest)

theorem numbered_compileSets {entries : List (String × Value)} {sets : Compiled (List (String × ℕ))}
    (h : compileSets entries argIndex = .ok sets) :
    Numbered argIndex (sets.sql.map Prod.snd) sets.args sets.next := by
  induction entries generalizing argIndex sets with
  | nil =>
    cases h
    exact Numbered.nil argIndex
  | cons entry entries ih =>
    obtain ⟨-, rest, hrest, rfl⟩ := compileSets_cons_ok h
    exact (Numbered.range argIndex [entry.2]).append (ih hrest)

theorem numbered_compileMutation {cteName : String} {mutationField : FieldNode}
    {cte : Compiled MutationCte}
    (h : compiler.compileMutation cteName mutationField argIndex = .ok cte) :
    Numbered argIndex (placeholders cte.sql.tokens) cte.args cte.next := by
  obtain ⟨-, h⟩ | ⟨-, -, h⟩ | ⟨-, -, -, h⟩ := compileMutation_ok h
  · obtain ⟨schema, table, recordMap, objects, columns, rows, -, -, -, -, hrows, rfl⟩ :=
      compileInsert_ok h
    have hholes : placeholders
        (MutationCte.insert cteName schema table columns rows.sql).tokens = rows.sql.flatten := by
      simp [MutationCte.tokens, placeholders_joinTokens, List.flatMap_map, rowTokens,
        List.flatMap_id']
    simp only [hholes]
    exact numbered_insertRows hrows
  · obtain ⟨schema, table, updateMap, sets, conditions, -, -, -, hsets, hwhere, rfl⟩ :=
      compileUpdate_ok h
    have hholes : placeholders
        (MutationCte.update cteName schema table sets.sql conditions.sql).tokens =
          sets.sql.map Prod.snd ++ conditionHoles conditions.sql := by
      simp [MutationCte.tokens, placeholders_joinTokens, List.flatMap_map, setTokens,
        ← List.map_eq_flatMap]
    simp only [hholes]
    exact (numbered_compileSets hsets).append (numbered_compileWhere hwhere)
  · obtain ⟨schema, table, conditions, -, -, hwhere, rfl⟩ := compileDelete_ok h
    simpa [MutationCte.tokens, ClauseNumbered] using numbered_compileWhere hwhere

theorem numbered_compileMutations {fields : List FieldNode} {mutationIndex : ℕ}
    {parts : Compiled (List MutationCte × List MutationResult)}
    (h : compiler.compileMutations fields mutationIndex argIndex = .ok parts) :
    Numbered argIndex (placeholders (Statement.mutation parts.sql.1 parts.sql.2).tokens)
      parts.args parts.next := by
  have hresult : ∀ result : MutationResult, placeholders result.tokens = [] := by
    intro result
    unfold MutationResult.tokens
    split <;> simp [placeholders_joinTokens, List.flatMap_map]
  induction fields generalizing mutationIndex argIndex parts with
  | nil =>
    cases h
    exact Numbered.nil argIndex
  | cons mutationField fields ih =>
    obtain ⟨cte, rest, hcte, hrest, rfl⟩ := compileMutations_cons_ok h
    have hnumbered := (numbered_compileMutation hcte).append (ih hrest)
    simpa [Statement.tokens, placeholders_joinTokens, List.flatMap_map, hresult] using hnumbered

/-- The placeholders of a compiled statement are `$1` to `$n`, each printed once and in order,
for its `n` arguments. -/
theorem placeholders_compile {operationNode : OperationNode} {query : SQLQuery}
    (h : compiler.compile operationNode = .ok query) :
    placeholders query.statement.tokens = List.range' 1 query.args.length := by
  obtain ⟨-, parts, hparts, rfl⟩ | ⟨-, parts, hparts, rfl⟩ := compile_ok h
  · exact (numbered_compileRootQueries hparts).holes_eq
  · exact (numbered_compileMutations hparts).holes_eq

end Compiler
end Layr.Graphql
