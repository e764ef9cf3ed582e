import Layr.Graphql.CompilerInversion
import Layr.Graphql.CompilerShape
import Layr.Graphql.SqlTokens

/-!
# The names of a compiled statement

Every name in the text of a compiled statement was checked by `isValidIdentifier`, comes from
the catalog, or is put together from such names by the compiler itself. Over a catalog of clean
names the text therefore holds clean names only, whatever the operation.
-/

namespace Layr.Graphql

open Go

variable {tokens : List Token} {schema table name tableAlias relTable : String} {argIndex : ℕ}

/-! ## Clean catalogs -/

/-- A relation that names schemas, tables and columns by letters, digits and underscores. -/
structure RelationInfo.Clean (relationInfo : RelationInfo) : Prop where
  foreignSchema : isIdentifierText relationInfo.foreignSchema
  foreignTable : isIdentifierText relationInfo.foreignTable
  localColumn : isIdentifierText relationInfo.localColumn
  targetColumn : isIdentifierText relationInfo.targetColumn

/-- A table with clean names. -/
structure TableInfo.Clean (tableInfo : TableInfo) : Prop where
  primaryKey : isIdentifierText tableInfo.primaryKey
  columns : ∀ column ∈ GoMap.keys tableInfo.columns, isIdentifierText column
  foreignKeys : ∀ name relationInfo, GoMap.get name tableInfo.foreignKeys = some relationInfo →
    relationInfo.Clean

/-- A catalog of clean tables under clean `schema.table` keys. -/
def Catalog.Clean (catalog : Catalog) : Prop :=
  ∀ key tableInfo, GoMap.get key catalog = some tableInfo →
    tableInfo.Clean ∧ ∃ schema table, key = tableKey schema table ∧
      isIdentifierText schema ∧ isIdentifierText table

/-- A compiler whose schema, table and column names are clean. -/
structure Compiler.Clean (compiler : Compiler) : Prop where
  catalog : compiler.catalog.Clean
  defaultSchema : isIdentifierText compiler.defaultSchema

/-- A key `schema.table` of clean names has only one reading. -/
theorem isIdentifierText_of_tableKey {schema' table' : String}
    (h : tableKey schema table = tableKey schema' table')
    (hschema : isIdentifierText schema') (htable : isIdentifierText table') :
    isIdentifierText schema ∧ isIdentifierText table := by
  have hdot : isIdentifierRune '.' = false := by decide
  have hno : ∀ {s : String}, isIdentifierText s → '.' ∉ s.toList := by
    intro s hs hmem
    have := List.all_eq_true.mp hs '.' hmem
    rw [hdot] at this
    cases this
  have hlist : schema.toList ++ '.' :: table.toList = schema'.toList ++ '.' :: table'.toList := by
    simpa [tableKey] using congrArg String.toList h
  obtain ⟨hs, -, ht⟩ := (List.append_cons_inj_of_notMem (hno hschema) (hno htable)).mp hlist.symm
  rw [String.toList_inj.mp hs.symm, String.toList_inj.mp ht.symm]
  exact ⟨hschema, htable⟩

/-- What a lookup in a clean catalog finds. -/
theorem Catalog.Clean.getTable {catalog : Catalog} (h : catalog.Clean) {tableInfo : TableInfo}
    (htable : catalog.getTable schema table = some tableInfo) :
    tableInfo.Clean := (h _ _ htable).1

/-- Both names a clean compiler reads a root field as, given that the table was checked. -/
theorem Compiler.Clean.qualify {compiler : Compiler} (h : compiler.Clean)
    (hqualify : compiler.catalog.qualify compiler.defaultSchema name = (schema, table))
    (htable : isIdentifierText table) :
    isIdentifierText schema ∧ isIdentifierText name := by
  unfold Catalog.qualify at hqualify
  simp only at hqualify
  split at hqualify
  · rename_i cut hfind
    subst hqualify
    obtain ⟨hne, hname⟩ := Strings.cutsAt_spec (List.mem_of_find?_eq_some hfind)
    have hsome : (compiler.catalog.getTable schema table).isSome := by
      simpa using List.find?_some hfind
    obtain ⟨tableInfo, hget⟩ := Option.isSome_iff_exists.mp hsome
    rw [Catalog.getTable, if_neg hne] at hget
    obtain ⟨-, schema', table', hkey, hschema', htable'⟩ := h.catalog _ _ hget
    have hschema := (isIdentifierText_of_tableKey hkey hschema' htable').1
    refine ⟨hschema, ?_⟩
    have hsplit : name = schema ++ "_" ++ table := by
      rw [← String.toList_inj]
      simpa using hname
    rw [hsplit, isIdentifierText_append, isIdentifierText_append]
    exact ⟨⟨hschema, by decide⟩, htable⟩
  · cases hqualify
    exact ⟨h.defaultSchema, htable⟩

/-! ## Clean tokens -/

/-- Every name among the tokens is clean. -/
def CleanTokens (tokens : List Token) : Prop :=
  ∀ name ∈ names tokens, isIdentifierText name

namespace CleanTokens

@[simp]
theorem nil : CleanTokens [] := by simp [CleanTokens]

@[simp]
theorem append_iff {tokens' : List Token} :
    CleanTokens (tokens ++ tokens') ↔ CleanTokens tokens ∧ CleanTokens tokens' := by
  simp [CleanTokens, or_imp, forall_and]

@[simp]
theorem text_iff {content : String} :
    CleanTokens (.text content :: tokens) ↔ CleanTokens tokens := by
  simp [CleanTokens]

@[simp]
theorem placeholder_iff {index : ℕ} :
    CleanTokens (.placeholder index :: tokens) ↔ CleanTokens tokens := by
  simp [CleanTokens]

@[simp]
theorem name_iff {content : String} :
    CleanTokens (.name content :: tokens) ↔
      isIdentifierText content ∧ CleanTokens tokens := by
  simp [CleanTokens]

theorem joinTokens_iff {separator : String} {parts : List (List Token)} :
    CleanTokens (joinTokens separator parts) ↔ ∀ part ∈ parts, CleanTokens part := by
  simp only [CleanTokens, names_joinTokens, List.mem_flatMap]
  exact ⟨fun h part hpart name hname => h name ⟨part, hpart, hname⟩,
    fun h name ⟨part, hpart, hname⟩ => h part hpart name hname⟩

@[simp]
theorem joinTokens_map_iff {α : Type} {separator : String} {items : List α} {f : α → List Token} :
    CleanTokens (joinTokens separator (items.map f)) ↔ ∀ item ∈ items, CleanTokens (f item) := by
  rw [joinTokens_iff, List.forall_mem_map]

@[simp]
theorem columnTokens_iff {qualifier column : String} :
    CleanTokens (columnTokens qualifier column) ↔
      isIdentifierText qualifier ∧ isIdentifierText column := by
  simp [columnTokens]

@[simp]
theorem tableTokens_iff :
    CleanTokens (tableTokens schema table) ↔
      isIdentifierText schema ∧ isIdentifierText table := by
  simp [tableTokens]

end CleanTokens

namespace Compiler

variable {compiler : Compiler}

/-! ## Clauses -/

section

variable (halias : isIdentifierText tableAlias)

include halias

theorem cleanTokens_compileFilter {columnName : String}
    (hcolumn : isIdentifierText columnName) (filterOp : String) (conditionValue : Value)
    (argIndex : ℕ) :
    ∀ condition ∈ (compileFilter tableAlias columnName filterOp conditionValue argIndex).sql,
      CleanTokens condition.tokens := by
  unfold compileFilter
  split
  · simp [Condition.tokens, halias, hcolumn]
  · split_ifs
    · split <;> simp [Condition.tokens, halias, hcolumn]
    · split <;> simp [Condition.tokens, halias, hcolumn]
    · simp

theorem cleanTokens_compileWhere {whereArg : Value} {startIndex : ℕ}
    {conditions : Compiled (List Condition)}
    (h : compileWhere tableAlias whereArg startIndex = .ok conditions) :
    CleanTokens (conditionsTokens conditions.sql) := by
  obtain ⟨hvalid, rfl⟩ := compileWhere_ok h
  clear h
  have hconditions : ∀ condition ∈
      (compileTriples tableAlias (whereFilters whereArg) startIndex).sql,
      CleanTokens condition.tokens := by
    generalize whereFilters whereArg = triples at hvalid
    induction triples generalizing startIndex with
    | nil => simp [compileTriples]
    | cons triple triples ih =>
      rw [List.forall_mem_cons] at hvalid
      intro condition hmem
      rcases List.mem_append.mp hmem with hmem | hmem
      · exact cleanTokens_compileFilter halias (isIdentifierText_of_valid hvalid.1)
          _ _ _ condition hmem
      · exact ih hvalid.2 condition hmem
  simpa [conditionsTokens] using hconditions

theorem cleanTokens_compileOrderBy {orderBy : Value} {terms : List OrderTerm}
    (h : compileOrderBy tableAlias orderBy = .ok terms) : CleanTokens (orderByTokens terms) := by
  have horder : ∀ {entries : List (String × Value)} {terms : List OrderTerm},
      orderTerms tableAlias entries = .ok terms → ∀ term ∈ terms, CleanTokens term.tokens := by
    intro entries
    induction entries with
    | nil =>
      intro terms h
      cases h
      simp
    | cons entry entries ih =>
      intro terms h
      rw [orderTerms] at h
      split at h
      · rename_i hvalid
        obtain ⟨rest, hrest, hterms⟩ := Result.bind_eq_ok.mp h
        cases hterms
        rw [List.forall_mem_cons]
        refine ⟨?_, ih hrest⟩
        simp [OrderTerm.tokens, halias, isIdentifierText_of_valid hvalid]
      · cases h
  have hterms : ∀ term ∈ terms, CleanTokens term.tokens := by
    unfold compileOrderBy at h
    split at h
    · cases h
      simp
    · obtain ⟨unsorted, hunsorted, hsorted⟩ := Result.bind_eq_ok.mp h
      cases hsorted
      exact fun term hmem => horder hunsorted term (Strings.mem_sortBy.mp hmem)
    · cases h
  unfold orderByTokens
  split
  · exact CleanTokens.nil
  · simpa using hterms

end

theorem cleanTokens_whereTokens {join : Option JoinCondition} {conditions : List Condition}
    (hjoin : ∀ condition, join = some condition → CleanTokens condition.tokens)
    (hconditions : CleanTokens (conditionsTokens conditions)) :
    CleanTokens (whereTokens join conditions) := by
  unfold whereTokens
  split
  · exact CleanTokens.nil
  · simpa using hconditions
  · simpa using hjoin _ rfl
  · simpa using ⟨hjoin _ rfl, hconditions⟩

/-! ## Relations -/

/-- A relation target with clean names. -/
structure RelationTarget.Clean (target : RelationTarget) : Prop where
  actualRelSchema : isIdentifierText target.actualRelSchema
  actualRelTable : isIdentifierText target.actualRelTable
  foreignKeyColumn : isIdentifierText target.foreignKeyColumn
  parentPrimaryKey : isIdentifierText target.parentPrimaryKey

theorem isIdentifierText_ite {c : Prop} [Decidable c] {other : String}
    (h : isIdentifierText name) (hother : isIdentifierText other) :
    isIdentifierText (if c then name else other) := by
  split
  · exact h
  · exact hother

theorem clean_relationTable (schema : String) (h : compiler.catalog.Clean)
    (htable : isIdentifierText relTable) :
    isIdentifierText (compiler.relationTable schema relTable).2 ∧
      ∀ tableInfo, (compiler.relationTable schema relTable).1 = some tableInfo →
        tableInfo.Clean := by
  unfold relationTable
  split
  · rename_i hinfo
    exact ⟨htable, fun _ heq => Option.some.inj heq ▸ h.getTable hinfo⟩
  · simp only
    split
    · rename_i hinfo
      refine ⟨isIdentifierText_ite (isIdentifierText_trimSuffix "s" htable) ?_,
        fun _ heq => Option.some.inj heq ▸ h.getTable hinfo⟩
      exact isIdentifierText_append.mpr ⟨htable, by decide⟩
    · exact ⟨htable, fun _ heq => by cases heq⟩

theorem clean_applyRelationForeignKey {parentTable : String} {relationTableInfo : Option TableInfo}
    {target : RelationTarget} (hinfo : ∀ info, relationTableInfo = some info → info.Clean)
    (h : target.Clean) :
    (applyRelationForeignKey parentTable relationTableInfo target).Clean := by
  unfold applyRelationForeignKey
  split
  · exact h
  · rename_i relationInfo hrelation
    obtain ⟨info, hsome, hget⟩ := Option.bind_eq_some_iff.mp hrelation
    have hclean := (hinfo info hsome).foreignKeys _ _ hget
    exact ⟨h.actualRelSchema, isIdentifierText_ite hclean.foreignTable h.actualRelTable,
      hclean.localColumn, hclean.targetColumn⟩

theorem clean_applyParentForeignKey {parentTableInfo : Option TableInfo} {target : RelationTarget}
    (hinfo : ∀ info, parentTableInfo = some info → info.Clean) (h : target.Clean) :
    (applyParentForeignKey relTable parentTableInfo target).Clean := by
  unfold applyParentForeignKey
  split
  · exact h
  · rename_i relationInfo hrelation
    obtain ⟨info, hsome, hget⟩ := Option.bind_eq_some_iff.mp hrelation
    have hclean := (hinfo info hsome).foreignKeys _ _ hget
    exact ⟨isIdentifierText_ite hclean.foreignSchema h.actualRelSchema,
      isIdentifierText_ite hclean.foreignTable h.actualRelTable, hclean.targetColumn,
      hclean.localColumn⟩

theorem clean_parentKeyColumn {parentTableInfo : Option TableInfo}
    (hinfo : ∀ info, parentTableInfo = some info → info.Clean) :
    isIdentifierText (parentKeyColumn parentTableInfo) := by
  unfold parentKeyColumn
  split
  · exact isIdentifierText_ite (hinfo _ rfl).primaryKey (by decide)
  · decide

/-- A relation resolves to clean names. -/
theorem clean_resolveRelation {parentTable : String} (h : compiler.catalog.Clean)
    (hschema : isIdentifierText schema) (hparent : isIdentifierText parentTable)
    (htable : isIdentifierText relTable) :
    (compiler.resolveRelation schema parentTable relTable).Clean := by
  have hinfo : ∀ info, compiler.catalog.getTable schema parentTable = some info → info.Clean :=
    fun info hget => h.getTable hget
  obtain ⟨hfound, hfoundInfo⟩ := clean_relationTable schema h htable
  refine clean_applyParentForeignKey hinfo (clean_applyRelationForeignKey hfoundInfo ?_)
  refine ⟨hschema, hfound, ?_, clean_parentKeyColumn hinfo⟩
  exact isIdentifierText_append.mpr ⟨isIdentifierText_trimSuffix "s" hparent, by decide⟩

/-! ## Queries -/

/-- An alias the compiler makes up. -/
theorem isIdentifierText_numbered (letter : String) (h : isIdentifierText letter) (n : ℕ) :
    isIdentifierText (letter ++ toString n) :=
  isIdentifierText_append.mpr ⟨h, isIdentifierText_toString n⟩

/-- A block is clean when its parts are. -/
theorem cleanTokens_select {pairs : List SelectPair} {join : Option JoinCondition}
    {conditions : List Condition} {orderBy : List OrderTerm} {limit offset : Option ℤ}
    (hpairs : ∀ part ∈ pairsTokens pairs, CleanTokens part)
    (hschema : isIdentifierText schema) (htable : isIdentifierText table)
    (halias : isIdentifierText tableAlias)
    (hwhere : CleanTokens (whereTokens join conditions))
    (horder : CleanTokens (orderByTokens orderBy)) :
    CleanTokens (Select.mk pairs schema table tableAlias join conditions orderBy limit
      offset).tokens := by
  rw [Select.tokens]
  simpa [CleanTokens.joinTokens_iff, hschema, htable, halias, hwhere, horder] using hpairs

mutual

theorem cleanTokens_compileNestedRelation {schema parentTable parentAlias : String}
    {startIndex depth : ℕ} (hclean : compiler.catalog.Clean)
    (hschema : isIdentifierText schema) (hparent : isIdentifierText parentTable)
    (hparentAlias : isIdentifierText parentAlias) :
    ∀ {field : FieldNode} {query : Compiled Select},
    compiler.compileNestedRelation schema parentTable parentAlias startIndex depth field
      = .ok query → CleanTokens query.sql.tokens
  | .mk relTable aliasName arguments selectionSet, query, h => by
    obtain ⟨hvalid, pairs, conditions, orderBy, limit, offset, hpairs, hwhere, horder, rfl⟩ :=
      compileNestedRelation_ok h
    have htable := isIdentifierText_of_valid hvalid
    have halias : isIdentifierText ("t" ++ toString depth) :=
      isIdentifierText_numbered "t" (by decide) depth
    have htarget := clean_resolveRelation hclean hschema hparent htable
    refine cleanTokens_select (cleanTokens_compileSelections hclean hschema htable halias hpairs)
      htarget.actualRelSchema htarget.actualRelTable halias ?_
      (cleanTokens_compileOrderBy halias horder)
    refine cleanTokens_whereTokens ?_ (cleanTokens_compileWhere halias hwhere)
    rintro _ ⟨⟩
    simpa [JoinCondition.tokens, hparentAlias, htarget.foreignKeyColumn,
      htarget.parentPrimaryKey] using halias

theorem cleanTokens_compileSelections {schema table tableAlias : String} {argIndex depth : ℕ}
    (hclean : compiler.catalog.Clean) (hschema : isIdentifierText schema)
    (htable : isIdentifierText table) (halias : isIdentifierText tableAlias) :
    ∀ {subFields : List FieldNode} {pairs : Compiled (List SelectPair)},
    compiler.compileSelections schema table tableAlias argIndex depth subFields = .ok pairs →
    ∀ part ∈ pairsTokens pairs.sql, CleanTokens part
  | [], pairs, h => by
    cases h
    simp [pairsTokens]
  | subField :: subFields, pairs, h => by
    obtain ⟨hkey, ⟨-, hname, rest, hrest, rfl⟩ | ⟨-, query, rest, hquery, hrest, rfl⟩⟩ :=
      compileSelections_cons_ok h
    · rw [pairsTokens, List.forall_mem_cons]
      refine ⟨?_, cleanTokens_compileSelections hclean hschema htable halias hrest⟩
      simp [SelectPair.tokens, isIdentifierText_of_valid hkey, isIdentifierText_of_valid hname,
        halias]
    · rw [pairsTokens, List.forall_mem_cons]
      refine ⟨?_, cleanTokens_compileSelections hclean hschema htable halias hrest⟩
      have hquery := cleanTokens_compileNestedRelation hclean hschema htable halias hquery
      simp [SelectPair.tokens, isIdentifierText_of_valid hkey, hquery]

end

theorem cleanTokens_defaultPairs (hclean : compiler.catalog.Clean)
    (htable : isIdentifierText table) (halias : isIdentifierText tableAlias) :
    ∀ part ∈ pairsTokens (compiler.defaultPairs schema table tableAlias), CleanTokens part := by
  refine defaultPairs_induction (P := fun pairs => ∀ part ∈ pairsTokens pairs, CleanTokens part)
    (by simp [pairsTokens]) (fun pairs ih => ?_) ?_
  · rw [pairsTokens, List.forall_mem_cons]
    exact ⟨by simp [SelectPair.tokens, htable, halias], ih⟩
  · intro tableInfo column pairs hget hmem ih
    have hcolumn := (hclean.getTable hget).columns column hmem
    rw [pairsTokens, List.forall_mem_cons]
    exact ⟨by simp [SelectPair.tokens, hcolumn, halias], ih⟩

section

variable (hclean : compiler.Clean)

include hclean

theorem cleanTokens_compileRootQuery {fieldNode : FieldNode} {startIndex : ℕ}
    {query : Compiled Select} (h : compiler.compileRootQuery fieldNode startIndex = .ok query) :
    isIdentifierText fieldNode.responseKey ∧ CleanTokens query.sql.tokens := by
  obtain ⟨schema, table, pairs, conditions, orderBy, limit, offset, hqualify, hcheck, halias,
    hpairs, hwhere, horder, rfl⟩ := compileRootQuery_ok h
  have htable := isIdentifierText_of_valid (checkTable_ok hcheck).2.2
  obtain ⟨hschema, hname⟩ := hclean.qualify hqualify htable
  have ht0 : isIdentifierText "t0" := by decide
  refine ⟨?_, cleanTokens_select ?_ hschema htable ht0 ?_ (cleanTokens_compileOrderBy ht0 horder)⟩
  · unfold FieldNode.responseKey
    split
    · rename_i hne
      exact isIdentifierText_of_valid (halias.resolve_left hne)
    · exact hname
  · split
    · exact cleanTokens_defaultPairs hclean.catalog htable ht0
    · exact cleanTokens_compileSelections hclean.catalog hschema htable ht0 hpairs
  · exact cleanTokens_whereTokens (by simp) (cleanTokens_compileWhere ht0 hwhere)

theorem cleanTokens_compileRootQueries {rootFields : List FieldNode}
    {parts : Compiled (List (String × Select))}
    (h : compiler.compileRootQueries rootFields argIndex = .ok parts) :
    ∀ field ∈ parts.sql, isIdentifierText field.1 ∧ CleanTokens field.2.tokens := by
  induction rootFields generalizing argIndex parts with
  | nil =>
    cases h
    simp
  | cons rootField rootFields ih =>
    obtain ⟨query, rest, hquery, hrest, rfl⟩ := compileRootQueries_cons_ok h
    rw [List.forall_mem_cons]
    exact ⟨cleanTokens_compileRootQuery hclean hquery, ih hrest⟩

/-! ## Mutations -/

omit hclean in
theorem isIdentifierText_compileSets {entries : List (String × Value)}
    {sets : Compiled (List (String × ℕ))} (h : compileSets entries argIndex = .ok sets) :
    ∀ entry ∈ sets.sql, isIdentifierText entry.1 := by
  induction entries generalizing argIndex sets with
  | nil =>
    cases h
    simp
  | cons entry entries ih =>
    obtain ⟨hvalid, rest, hrest, rfl⟩ := compileSets_cons_ok h
    rw [List.forall_mem_cons]
    exact ⟨isIdentifierText_of_valid hvalid, ih hrest⟩

/-- The name of a mutation field is its prefix and the name of a table. -/
theorem isIdentifierText_mutationName {pre context : String}
    (hstart : Strings.hasPrefix name pre) (hpre : isIdentifierText pre)
    (hqualify : compiler.catalog.qualify compiler.defaultSchema (Strings.trimPrefix name pre)
      = (schema, table)) (hcheck : compiler.checkTable schema table context = .ok ()) :
    isIdentifierText name ∧ isIdentifierText schema ∧
      isIdentifierText table := by
  have htable := isIdentifierText_of_valid (checkTable_ok hcheck).2.2
  obtain ⟨hschema, hname⟩ := hclean.qualify hqualify htable
  refine ⟨?_, hschema, htable⟩
  rw [← Strings.append_trimPrefix hstart]
  exact isIdentifierText_append.mpr ⟨hpre, hname⟩

theorem cleanTokens_compileMutation {cteName : String} {mutationField : FieldNode}
    {cte : Compiled MutationCte} (hcte : isIdentifierText cteName)
    (h : compiler.compileMutation cteName mutationField argIndex = .ok cte) :
    isIdentifierText mutationField.name ∧ CleanTokens cte.sql.tokens := by
  obtain ⟨hstart, h⟩ | ⟨-, hstart, h⟩ | ⟨-, -, hstart, h⟩ := compileMutation_ok h
  · obtain ⟨schema, table, recordMap, objects, columns, rows, hqualify, hcheck, -, hcolumns, -,
      rfl⟩ := compileInsert_ok h
    obtain ⟨hname, hschema, htable⟩ :=
      isIdentifierText_mutationName hclean hstart (by decide) hqualify hcheck
    have hvalid := (insertColumns_ok hcolumns).2
    have hrow : ∀ row : List ℕ, CleanTokens (rowTokens row) := by
      simp [rowTokens]
    refine ⟨hname, ?_⟩
    simpa [MutationCte.tokens, hcte, hschema, htable, hrow] using
      fun column hcolumn => isIdentifierText_of_valid (hvalid column hcolumn)
  · obtain ⟨schema, table, updateMap, sets, conditions, hqualify, hcheck, -, hsets, hwhere, rfl⟩ :=
      compileUpdate_ok h
    obtain ⟨hname, hschema, htable⟩ :=
      isIdentifierText_mutationName hclean hstart (by decide) hqualify hcheck
    refine ⟨hname, ?_⟩
    simpa [MutationCte.tokens, setTokens, hcte, hschema, htable,
      cleanTokens_compileWhere htable hwhere] using isIdentifierText_compileSets hsets
  · obtain ⟨schema, table, conditions, hqualify, hcheck, hwhere, rfl⟩ := compileDelete_ok h
    obtain ⟨hname, hschema, htable⟩ :=
      isIdentifierText_mutationName hclean hstart (by decide) hqualify hcheck
    refine ⟨hname, ?_⟩
    simp [MutationCte.tokens, hcte, hschema, htable, cleanTokens_compileWhere htable hwhere]

omit hclean in
theorem cleanTokens_result {selectionSet : List FieldNode} (hname : isIdentifierText name)
    {cteName : String} (hcte : isIdentifierText cteName) :
    CleanTokens (MutationResult.mk name cteName (returningPairs selectionSet)).tokens := by
  have hpairs : ∀ pair ∈ returningPairs selectionSet,
      isIdentifierText pair.1 ∧ isIdentifierText pair.2 := by
    intro pair hpair
    obtain ⟨subField, hmem, rfl⟩ := List.mem_map.mp hpair
    have hvalid := (List.mem_filter.mp hmem).2
    rw [Bool.and_eq_true] at hvalid
    exact ⟨isIdentifierText_of_valid hvalid.2, isIdentifierText_of_valid hvalid.1⟩
  unfold MutationResult.tokens
  dsimp only
  split
  · simp [hname, hcte]
  · simpa [hname, hcte] using hpairs

theorem cleanTokens_compileMutations {fields : List FieldNode} {mutationIndex : ℕ}
    {parts : Compiled (List MutationCte × List MutationResult)}
    (h : compiler.compileMutations fields mutationIndex argIndex = .ok parts) :
    (∀ cte ∈ parts.sql.1, CleanTokens cte.tokens) ∧
      ∀ result ∈ parts.sql.2, CleanTokens result.tokens := by
  induction fields generalizing mutationIndex argIndex parts with
  | nil =>
    cases h
    simp
  | cons mutationField fields ih =>
    obtain ⟨cte, rest, hcte, hrest, rfl⟩ := compileMutations_cons_ok h
    have hm := isIdentifierText_numbered "m" (by decide) mutationIndex
    obtain ⟨hname, htokens⟩ := cleanTokens_compileMutation hclean hm hcte
    rw [List.forall_mem_cons, List.forall_mem_cons]
    exact ⟨⟨htokens, (ih hrest).1⟩, cleanTokens_result hname hm, (ih hrest).2⟩

/-! ## Operations -/

/-- The text of a compiled operation holds clean names only. -/
theorem cleanTokens_compile {operationNode : OperationNode} {query : SQLQuery}
    (h : compiler.compile operationNode = .ok query) : CleanTokens query.statement.tokens := by
  obtain ⟨-, parts, hparts, rfl⟩ | ⟨-, parts, hparts, rfl⟩ := compile_ok h
  · have hfields := cleanTokens_compileRootQueries hclean hparts
    simpa [Statement.tokens] using hfields
  · obtain ⟨hctes, hresults⟩ := cleanTokens_compileMutations hclean hparts
    simpa [Statement.tokens] using ⟨hctes, hresults⟩

end

/-- **Noninterference.** Two operations that differ in bound scalars only compile to the same
text or fail with the same error, and over clean names every name of that text is clean. -/
theorem compile_noninterference (compiler : Compiler)
    (operationNode operationNode' : OperationNode) (hclean : compiler.Clean)
    (h : operationNode.erase = operationNode'.erase) :
    (compiler.compile operationNode).map SQLQuery.sql =
        (compiler.compile operationNode').map SQLQuery.sql ∧
      ∀ query, compiler.compile operationNode = .ok query →
        ∀ name ∈ names query.statement.tokens, isIdentifierText name := by
  refine ⟨?_, fun query hquery => cleanTokens_compile hclean hquery⟩
  have hsql : ∀ x : Except CompileError SQLQuery,
      x.map SQLQuery.sql = (x.map SQLQuery.statement).map Statement.print := by
    intro x
    cases x <;> rfl
  rw [hsql, hsql, ← compile_erase, h, compile_erase]

/-- A catalog with one table. -/
def tagsCatalog : Catalog :=
  [("public.tags",
    { schema := "public", name := "tags", primaryKey := "id"
      columns := [("id", ⟨"id", "uuid", false, true⟩), ("label", ⟨"label", "text", true, false⟩)]
      foreignKeys := [] })]

theorem tagsCatalog_clean : (newCompiler tagsCatalog "").Clean := by
  refine ⟨fun key tableInfo h => ?_, by decide⟩
  change GoMap.get key tagsCatalog = some tableInfo at h
  simp only [tagsCatalog, GoMap.get] at h
  split at h
  · rename_i hkey
    cases h
    exact ⟨⟨by decide, by decide, by simp⟩, "public", "tags", hkey.symm.trans (by decide),
      by decide, by decide⟩
  · cases h

/-- `{ tags(where: {label: {<filterOp>: <operand>}}) { id } }`. -/
def tagsOperation (filterOp : String) (operand : Value) : OperationNode :=
  { type := .query, name := "", cacheTTL := 0, cacheKeySuffix := ""
    selectionSet := [.mk "tags" "" [("where", .obj [("label", .obj [(filterOp, operand)])])]
      [.mk "id" "" [] []]] }

/-- A label that tries to leave its place in the statement compiles to the text of any other. -/
theorem tagsOperation_noninterference :
    ((newCompiler tagsCatalog "").compile
        (tagsOperation "_eq" (.str "x\" OR 1 = 1 --"))).map SQLQuery.sql =
      ((newCompiler tagsCatalog "").compile (tagsOperation "_eq" (.int 7))).map SQLQuery.sql ∧
    ∀ query, (newCompiler tagsCatalog "").compile
        (tagsOperation "_eq" (.str "x\" OR 1 = 1 --")) = .ok query →
      ∀ name ∈ names query.statement.tokens, isIdentifierText name :=
  compile_noninterference (newCompiler tagsCatalog "")
    (tagsOperation "_eq" (.str "x\" OR 1 = 1 --"))
    (tagsOperation "_eq" (.int 7)) tagsCatalog_clean rfl

/-- The boolean operand of `_is_null` is no argument: it chooses the text. -/
theorem isNull_operand_changes_text :
    ∃ query query',
      (newCompiler tagsCatalog "").compile (tagsOperation "_is_null" (.bool true)) = .ok query ∧
      (newCompiler tagsCatalog "").compile (tagsOperation "_is_null" (.bool false)) = .ok query' ∧
      query.sql =
        "SELECT json_build_object('tags', (SELECT COALESCE(json_agg(json_build_object(" ++
          "'id', t0.\"id\")), '[]'::json) FROM \"public\".\"tags\" t0 " ++
          "WHERE t0.\"label\" IS NULL))" ∧
      query'.sql =
        "SELECT json_build_object('tags', (SELECT COALESCE(json_agg(json_build_object(" ++
          "'id', t0.\"id\")), '[]'::json) FROM \"public\".\"tags\" t0 " ++
          "WHERE t0.\"label\" IS NOT NULL))" ∧
      query.sql ≠ query'.sql :=
  ⟨_, _, rfl, rfl, by decide +kernel, by decide +kernel, by decide +kernel⟩

end Compiler
end Layr.Graphql
