import Layr.Go.Result
import Layr.Graphql.Reading

/-!
# What a successful compilation did

One lemma for each compiling function, saying everything its success implies: which calls
succeeded, which checks passed and what was assembled from the results. The properties of
compiled statements are proved from these and never unfold the compiler.
-/

namespace Layr.Graphql
namespace Compiler

open Go Result

variable {compiler : Compiler}

variable {conditions : Compiled (List Condition)} {cte : Compiled MutationCte}
  {mutationField : FieldNode} {schema table tableAlias cteName name : String}
  {argIndex startIndex depth : ℕ} {query : Compiled Select}

/-- A table that passes the checks is exposed and has a valid name. -/
theorem checkTable_ok {context : String} (h : compiler.checkTable schema table context = .ok ()) :
    compiler.isSchemaAllowed schema ∧ compiler.isTableExcluded schema table = false ∧
      isValidIdentifier table := by
  unfold checkTable at h
  split at h
  · cases h
  split at h
  · cases h
  split at h
  · cases h
  rename_i hschema htable hvalid
  exact ⟨by simpa using hschema, by simpa using htable, by simpa using hvalid⟩

/-! ## Queries -/

/-- The conditions of a list of column, operator and operand triples. -/
def compileTriples (tableAlias : String) :
    List (String × String × Value) → ℕ → Compiled (List Condition)
  | [], argIndex => ⟨[], [], argIndex⟩
  | (columnName, filterOp, operand) :: triples, argIndex =>
    let first := compileFilter tableAlias columnName filterOp operand argIndex
    let rest := compileTriples tableAlias triples first.next
    ⟨first.sql ++ rest.sql, first.args ++ rest.args, rest.next⟩

theorem compileTriples_append (tableAlias : String)
    (triples triples' : List (String × String × Value))
    (argIndex : ℕ) :
    compileTriples tableAlias (triples ++ triples') argIndex =
      let first := compileTriples tableAlias triples argIndex
      let rest := compileTriples tableAlias triples' first.next
      ⟨first.sql ++ rest.sql, first.args ++ rest.args, rest.next⟩ := by
  induction triples generalizing argIndex with
  | nil => rfl
  | cons triple triples ih => simp [compileTriples, ih]

/-- Direct equality is the operator `_eq`. -/
theorem compileColumn_eq (tableAlias columnName : String) (condition : Value) (argIndex : ℕ) :
    compileColumn tableAlias columnName condition argIndex =
      compileTriples tableAlias (columnFilters columnName condition) argIndex := by
  have hfilters : ∀ entries argIndex, compileFilters tableAlias columnName entries argIndex =
      compileTriples tableAlias (entries.map fun entry => (columnName, entry.1, entry.2))
        argIndex := by
    intro entries
    induction entries with
    | nil => exact fun _ => rfl
    | cons entry entries ih =>
      intro argIndex
      simp only [compileFilters, List.map_cons, compileTriples, ih]
  cases condition with
  | obj => exact hfilters _ _
  | _ => rfl

theorem compileColumns_ok {entries : List (String × Value)}
    (h : compileColumns tableAlias entries argIndex = .ok conditions) :
    (∀ entry ∈ entries, isValidIdentifier entry.1) ∧
      conditions = compileTriples tableAlias
        (entries.flatMap fun entry => columnFilters entry.1 entry.2) argIndex := by
  induction entries generalizing argIndex conditions with
  | nil =>
    cases h
    exact ⟨by simp, rfl⟩
  | cons entry entries ih =>
    rw [compileColumns] at h
    split at h
    · rename_i hvalid
      obtain ⟨rest, hrest, hconditions⟩ := bind_eq_ok.mp h
      cases hconditions
      obtain ⟨hentries, rfl⟩ := ih hrest
      refine ⟨List.forall_mem_cons.mpr ⟨hvalid, hentries⟩, ?_⟩
      rw [List.flatMap_cons, compileTriples_append, compileColumn_eq]
    · cases h

/-- The conditions of a `where` argument are those of its triples, whose columns are valid. -/
theorem compileWhere_ok {whereArg : Value}
    (h : compileWhere tableAlias whereArg startIndex = .ok conditions) :
    (∀ triple ∈ whereFilters whereArg, isValidIdentifier triple.1) ∧
      conditions = compileTriples tableAlias (whereFilters whereArg) startIndex := by
  unfold compileWhere at h
  split at h
  · cases h
    exact ⟨by simp [whereFilters], rfl⟩
  · obtain ⟨hvalid, hconditions⟩ := compileColumns_ok h
    refine ⟨fun triple htriple => ?_, hconditions⟩
    obtain ⟨entry, hentry, hmem⟩ := List.mem_flatMap.mp htriple
    have hcolumn : triple.1 = entry.1 := by
      unfold columnFilters at hmem
      split at hmem
      · obtain ⟨filter, -, rfl⟩ := List.mem_map.mp hmem
        rfl
      · rw [List.mem_singleton.mp hmem]
    exact hcolumn ▸ hvalid entry hentry
  · cases h

/-- A default pair is the whole row, or a column under its own name. -/
theorem mem_defaultPairs {pair : SelectPair}
    (h : pair ∈ compiler.defaultPairs schema table tableAlias) :
    pair = .wholeRow table tableAlias ∨
      ∃ tableInfo column, compiler.catalog.getTable schema table = some tableInfo ∧
        column ∈ GoMap.keys tableInfo.columns ∧ pair = .column column tableAlias column := by
  unfold defaultPairs at h
  split at h
  · exact .inl (by simpa using h)
  · rename_i tableInfo htable
    split at h
    · exact .inl (by simpa using h)
    · obtain ⟨column, hcolumn, rfl⟩ := List.mem_map.mp (Strings.mem_sortBy.mp h)
      exact .inr ⟨tableInfo, column, htable, hcolumn, rfl⟩

/-- The default pairs, one pair at a time. -/
theorem defaultPairs_induction {P : List SelectPair → Prop} (hnil : P [])
    (hrow : ∀ pairs, P pairs → P (.wholeRow table tableAlias :: pairs))
    (hcolumn : ∀ tableInfo column pairs, compiler.catalog.getTable schema table = some tableInfo →
      column ∈ GoMap.keys tableInfo.columns → P pairs →
      P (.column column tableAlias column :: pairs)) :
    P (compiler.defaultPairs schema table tableAlias) := by
  have hpairs := fun pair hpair => @mem_defaultPairs compiler schema table tableAlias pair hpair
  generalize compiler.defaultPairs schema table tableAlias = pairs at hpairs
  induction pairs with
  | nil => exact hnil
  | cons pair pairs ih =>
    rw [List.forall_mem_cons] at hpairs
    obtain rfl | ⟨tableInfo, column, hget, hmem, rfl⟩ := hpairs.1
    · exact hrow pairs (ih hpairs.2)
    · exact hcolumn tableInfo column pairs hget hmem (ih hpairs.2)

theorem compileNestedRelation_ok {parentTable parentAlias relTable aliasName : String}
    {arguments : GoMap Value} {selectionSet : List FieldNode}
    (h : compiler.compileNestedRelation schema parentTable parentAlias startIndex depth
      (.mk relTable aliasName arguments selectionSet) = .ok query) :
    isValidIdentifier relTable ∧
      ∃ pairs conditions orderBy limit offset,
        compiler.compileSelections schema relTable ("t" ++ toString depth) startIndex (depth + 1)
          selectionSet = .ok pairs ∧
        compileWhere ("t" ++ toString depth) ((arguments.get "where").getD .null) pairs.next
          = .ok conditions ∧
        compileOrderBy ("t" ++ toString depth) ((arguments.get "order_by").getD .null)
          = .ok orderBy ∧
        query =
          { sql := .mk pairs.sql
              (compiler.resolveRelation schema parentTable relTable).actualRelSchema
              (compiler.resolveRelation schema parentTable relTable).actualRelTable
              ("t" ++ toString depth)
              (some ⟨"t" ++ toString depth,
                (compiler.resolveRelation schema parentTable relTable).foreignKeyColumn,
                parentAlias,
                (compiler.resolveRelation schema parentTable relTable).parentPrimaryKey⟩)
              conditions.sql orderBy limit offset
            args := pairs.args ++ conditions.args
            next := conditions.next } := by
  rw [compileNestedRelation] at h
  split at h
  · cases h
  · rename_i hvalid
    simp only [bind_eq_ok] at h
    obtain ⟨pairs, hpairs, conditions, hwhere, orderBy, horder, limit, -, offset, -, hquery⟩ := h
    cases hquery
    exact ⟨by simpa using hvalid, pairs, conditions, orderBy, limit, offset, hpairs, hwhere, horder,
      rfl⟩

/-- A selection set starts with a column or with a nested relation. -/
theorem compileSelections_cons_ok {subField : FieldNode} {subFields : List FieldNode}
    {pairs : Compiled (List SelectPair)}
    (h : compiler.compileSelections schema table tableAlias argIndex depth (subField :: subFields)
      = .ok pairs) :
    isValidIdentifier subField.responseKey ∧
      ((subField.selectionSet.isEmpty ∧ isValidIdentifier subField.name ∧
        ∃ rest, compiler.compileSelections schema table tableAlias argIndex depth subFields
            = .ok rest ∧
          pairs = ⟨.column subField.responseKey tableAlias subField.name :: rest.sql, rest.args,
            rest.next⟩) ∨
      (subField.selectionSet.isEmpty = false ∧
        ∃ query rest,
          compiler.compileNestedRelation schema table tableAlias argIndex depth subField
            = .ok query ∧
          compiler.compileSelections schema table tableAlias query.next depth subFields
            = .ok rest ∧
          pairs = ⟨.nested subField.responseKey query.sql :: rest.sql, query.args ++ rest.args,
            rest.next⟩)) := by
  rw [compileSelections] at h
  split at h
  · cases h
  rename_i hkey
  refine ⟨by simpa using hkey, ?_⟩
  split at h
  · rename_i hempty
    left
    split at h
    · cases h
    · rename_i hname
      obtain ⟨rest, hrest, hpairs⟩ := bind_eq_ok.mp h
      cases hpairs
      exact ⟨hempty, by simpa using hname, rest, hrest, rfl⟩
  · rename_i hempty
    right
    simp only [bind_eq_ok] at h
    obtain ⟨query, hquery, rest, hrest, hpairs⟩ := h
    cases hpairs
    exact ⟨by simpa using hempty, query, rest, hquery, hrest, rfl⟩

theorem compileRootQuery_ok {fieldNode : FieldNode}
    (h : compiler.compileRootQuery fieldNode startIndex = .ok query) :
    ∃ schema table pairs conditions orderBy limit offset,
      compiler.catalog.qualify compiler.defaultSchema fieldNode.name = (schema, table) ∧
      compiler.checkTable schema table "" = .ok () ∧
      (fieldNode.aliasName = "" ∨ isValidIdentifier fieldNode.aliasName) ∧
      compiler.compileSelections schema table "t0" startIndex 1 fieldNode.selectionSet
        = .ok pairs ∧
      compileWhere "t0" (fieldNode.argument "where") pairs.next = .ok conditions ∧
      compileOrderBy "t0" (fieldNode.argument "order_by") = .ok orderBy ∧
      query =
        { sql := .mk
            (if pairs.sql.isEmpty then compiler.defaultPairs schema table "t0" else pairs.sql)
            schema table "t0" none conditions.sql orderBy limit offset
          args := pairs.args ++ conditions.args
          next := conditions.next } := by
  unfold compileRootQuery at h
  obtain ⟨⟨⟩, hcheck, h⟩ := bind_eq_ok.mp h
  split at h
  · cases h
  · rename_i halias
    simp only [bind_eq_ok] at h
    obtain ⟨pairs, hpairs, conditions, hwhere, orderBy, horder, limit, -, offset, -, hquery⟩ := h
    cases hquery
    refine ⟨_, _, pairs, conditions, orderBy, limit, offset, rfl, hcheck, ?_, hpairs, hwhere,
      horder, rfl⟩
    by_cases hempty : fieldNode.aliasName = ""
    · exact .inl hempty
    · exact .inr (by simpa using fun hinvalid => halias ⟨hempty, hinvalid⟩)

theorem compileRootQueries_cons_ok {rootField : FieldNode} {rootFields : List FieldNode}
    {parts : Compiled (List (String × Select))}
    (h : compiler.compileRootQueries (rootField :: rootFields) argIndex = .ok parts) :
    ∃ query rest, compiler.compileRootQuery rootField argIndex = .ok query ∧
      compiler.compileRootQueries rootFields query.next = .ok rest ∧
      parts = ⟨(rootField.responseKey, query.sql) :: rest.sql, query.args ++ rest.args,
        rest.next⟩ := by
  simp only [compileRootQueries, bind_eq_ok] at h
  obtain ⟨query, hquery, rest, hrest, hparts⟩ := h
  cases hparts
  exact ⟨query, rest, hquery, hrest, rfl⟩

/-! ## Mutations -/

theorem insertColumns_ok {recordMap : GoMap Value} {columns : List String}
    (h : insertColumns recordMap = .ok columns) :
    columns = Strings.sort (GoMap.keys recordMap) ∧
      ∀ column ∈ columns, isValidIdentifier column := by
  unfold insertColumns at h
  split at h
  · cases h
  · rename_i hfind
    cases h
    refine ⟨rfl, fun column hcolumn => ?_⟩
    have := List.find?_eq_none.mp hfind column (Strings.mem_sort.mp hcolumn)
    simpa using this

theorem insertRows_cons_ok {columns : List String} {object : Value} {objects : List Value}
    {rows : Compiled (List (List ℕ))}
    (h : insertRows columns (object :: objects) argIndex = .ok rows) :
    ∃ objectMap rest, object = .obj objectMap ∧
      insertRows columns objects (argIndex + columns.length) = .ok rest ∧
      rows = ⟨List.range' argIndex columns.length :: rest.sql,
        (columns.map fun column => (GoMap.get column objectMap).getD .null) ++ rest.args,
        rest.next⟩ := by
  cases object with
  | obj objectMap =>
    obtain ⟨rest, hrest, hrows⟩ := bind_eq_ok.mp h
    cases hrows
    exact ⟨objectMap, rest, rfl, hrest, rfl⟩
  | _ => cases h

theorem compileSets_cons_ok {columnName : String} {columnValue : Value}
    {entries : List (String × Value)} {sets : Compiled (List (String × ℕ))}
    (h : compileSets ((columnName, columnValue) :: entries) argIndex = .ok sets) :
    isValidIdentifier columnName ∧
      ∃ rest, compileSets entries (argIndex + 1) = .ok rest ∧
        sets = ⟨(columnName, argIndex) :: rest.sql, columnValue :: rest.args, rest.next⟩ := by
  rw [compileSets] at h
  split at h
  · rename_i hvalid
    obtain ⟨rest, hrest, hsets⟩ := bind_eq_ok.mp h
    cases hsets
    exact ⟨hvalid, rest, hrest, rfl⟩
  · cases h

theorem compileRequiredWhere_ok {mutation : String}
    (h : compileRequiredWhere mutation table mutationField argIndex = .ok conditions) :
    compileWhere table (mutationField.argument "where") argIndex = .ok conditions := by
  unfold compileRequiredWhere at h
  split at h
  · cases h
  · obtain ⟨conditions', hwhere, h⟩ := bind_eq_ok.mp h
    split at h
    · cases h
    · cases h
      exact hwhere

theorem compileInsert_ok
    (h : compiler.compileInsert cteName name mutationField argIndex = .ok cte) :
    ∃ schema table recordMap objects columns rows,
      compiler.catalog.qualify compiler.defaultSchema (Strings.trimPrefix name "insert_")
        = (schema, table) ∧
      compiler.checkTable schema table " in insert mutation" = .ok () ∧
      mutationField.argument "objects" = .list (.obj recordMap :: objects) ∧
      insertColumns recordMap = .ok columns ∧
      insertRows columns (.obj recordMap :: objects) argIndex = .ok rows ∧
      cte = ⟨.insert cteName schema table columns rows.sql, rows.args, rows.next⟩ := by
  unfold compileInsert at h
  obtain ⟨⟨⟩, hcheck, h⟩ := bind_eq_ok.mp h
  split at h
  · rename_i recordMap objects hobjects
    simp only [bind_eq_ok] at h
    obtain ⟨columns, hcolumns, rows, hrows, hcte⟩ := h
    cases hcte
    exact ⟨_, _, recordMap, objects, columns, rows, rfl, hcheck, hobjects, hcolumns, hrows, rfl⟩
  · cases h
  · cases h

theorem compileUpdate_ok
    (h : compiler.compileUpdate cteName name mutationField argIndex = .ok cte) :
    ∃ schema table updateMap sets conditions,
      compiler.catalog.qualify compiler.defaultSchema (Strings.trimPrefix name "update_")
        = (schema, table) ∧
      compiler.checkTable schema table " in update mutation" = .ok () ∧
      mutationField.argument "_set" = .obj updateMap ∧
      compileSets (GoMap.entries updateMap) argIndex = .ok sets ∧
      compileWhere table (mutationField.argument "where") sets.next = .ok conditions ∧
      cte = ⟨.update cteName schema table sets.sql conditions.sql, sets.args ++ conditions.args,
        conditions.next⟩ := by
  unfold compileUpdate at h
  obtain ⟨⟨⟩, hcheck, h⟩ := bind_eq_ok.mp h
  split at h
  · rename_i entry updateMap hset
    simp only [bind_eq_ok] at h
    obtain ⟨sets, hsets, conditions, hconditions, hcte⟩ := h
    cases hcte
    exact ⟨_, _, entry :: updateMap, sets, conditions, rfl, hcheck, hset, hsets,
      compileRequiredWhere_ok hconditions, rfl⟩
  · cases h

theorem compileDelete_ok
    (h : compiler.compileDelete cteName name mutationField argIndex = .ok cte) :
    ∃ schema table conditions,
      compiler.catalog.qualify compiler.defaultSchema (Strings.trimPrefix name "delete_")
        = (schema, table) ∧
      compiler.checkTable schema table " in delete mutation" = .ok () ∧
      compileWhere table (mutationField.argument "where") argIndex = .ok conditions ∧
      cte = ⟨.delete cteName schema table conditions.sql, conditions.args, conditions.next⟩ := by
  unfold compileDelete at h
  obtain ⟨⟨⟩, hcheck, h⟩ := bind_eq_ok.mp h
  obtain ⟨conditions, hconditions, hcte⟩ := bind_eq_ok.mp h
  cases hcte
  exact ⟨_, _, conditions, rfl, hcheck, compileRequiredWhere_ok hconditions, rfl⟩

/-- The three kinds of mutation, told apart by the name of the field. -/
theorem compileMutation_ok (h : compiler.compileMutation cteName mutationField argIndex = .ok cte) :
    (Strings.hasPrefix mutationField.name "insert_" ∧
      compiler.compileInsert cteName mutationField.name mutationField argIndex = .ok cte) ∨
    (Strings.hasPrefix mutationField.name "insert_" = false ∧
      Strings.hasPrefix mutationField.name "update_" ∧
      compiler.compileUpdate cteName mutationField.name mutationField argIndex = .ok cte) ∨
    (Strings.hasPrefix mutationField.name "insert_" = false ∧
      Strings.hasPrefix mutationField.name "update_" = false ∧
      Strings.hasPrefix mutationField.name "delete_" ∧
      compiler.compileDelete cteName mutationField.name mutationField argIndex = .ok cte) := by
  unfold compileMutation at h
  simp only at h
  split at h
  · rename_i hinsert
    exact .inl ⟨hinsert, h⟩
  split at h
  · rename_i hinsert hupdate
    exact .inr (.inl ⟨by simpa using hinsert, hupdate, h⟩)
  split at h
  · rename_i hinsert hupdate hdelete
    exact .inr (.inr ⟨by simpa using hinsert, by simpa using hupdate, hdelete, h⟩)
  · cases h

theorem compileMutations_cons_ok {fields : List FieldNode} {mutationIndex : ℕ}
    {parts : Compiled (List MutationCte × List MutationResult)}
    (h : compiler.compileMutations (mutationField :: fields) mutationIndex argIndex = .ok parts) :
    ∃ cte rest,
      compiler.compileMutation ("m" ++ toString mutationIndex) mutationField argIndex = .ok cte ∧
      compiler.compileMutations fields (mutationIndex + 1) cte.next = .ok rest ∧
      parts = ⟨(cte.sql :: rest.sql.1,
        { name := mutationField.name, cteName := "m" ++ toString mutationIndex
          returning := returningPairs mutationField.selectionSet } :: rest.sql.2),
        cte.args ++ rest.args, rest.next⟩ := by
  simp only [compileMutations, bind_eq_ok] at h
  obtain ⟨cte, hcte, rest, hrest, hparts⟩ := h
  cases hparts
  exact ⟨cte, rest, hcte, hrest, rfl⟩

/-- An operation is compiled as a query or as a mutation. -/
theorem compile_ok {operationNode : OperationNode} {query : SQLQuery}
    (h : compiler.compile operationNode = .ok query) :
    (operationNode.type = .query ∧ ∃ parts,
      compiler.compileRootQueries operationNode.selectionSet 1 = .ok parts ∧
      query = ⟨.query parts.sql, parts.args⟩) ∨
    (operationNode.type = .mutation ∧ ∃ parts,
      compiler.compileMutations operationNode.selectionSet 0 1 = .ok parts ∧
      query = ⟨.mutation parts.sql.1 parts.sql.2, parts.args⟩) := by
  unfold compile at h
  split at h
  · cases h
  · split at h
    · rename_i htype
      obtain ⟨parts, hparts, hquery⟩ := bind_eq_ok.mp h
      cases hquery
      exact .inr ⟨htype, parts, hparts, rfl⟩
    · rename_i htype
      obtain ⟨parts, hparts, hquery⟩ := bind_eq_ok.mp h
      cases hquery
      exact .inl ⟨htype, parts, hparts, rfl⟩

end Compiler
end Layr.Graphql
