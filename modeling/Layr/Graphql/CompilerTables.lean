import Layr.Graphql.Relations

/-!
# Which tables a compiled operation touches

Root fields and mutations are checked against the allowed schemas and the excluded tables; the
tables of nested relations come straight from the catalog. The tables in the FROM, INTO, UPDATE
and DELETE positions of a statement are the checked root tables and those that the catalog sends
the selected relations to.
-/

namespace Layr.Graphql

open Go

/-! ## The table positions of a statement -/

mutual

/-- The tables in the FROM positions of a block, its own first. -/
def Select.tables : Select → List (String × String)
  | .mk pairs schema table _ _ _ _ _ _ => (schema, table) :: pairTables pairs

def pairTables : List SelectPair → List (String × String)
  | [] => []
  | .column _ _ _ :: pairs => pairTables pairs
  | .nested _ query :: pairs => query.tables ++ pairTables pairs
  | .wholeRow _ _ :: pairs => pairTables pairs

end

/-- The table of a mutation. -/
def MutationCte.table : MutationCte → String × String
  | insert _ schema table _ _ => (schema, table)
  | update _ schema table _ _ => (schema, table)
  | delete _ schema table _ => (schema, table)

/-- The tables in the FROM, INTO, UPDATE and DELETE positions of a statement. The CTE names that
a mutation reads its results from are no tables. -/
def Statement.tables : Statement → List (String × String)
  | query fields => fields.flatMap fun field => field.2.tables
  | mutation ctes _ => ctes.map MutationCte.table

/-! ## The relations of an operation -/

/-- A field with a selection of its own at some depth below a selection set, with the name that
its parent has in the operation. -/
inductive Selects : String → List FieldNode → String → FieldNode → Prop
  | direct {parentTable : String} {fields : List FieldNode} {relation : FieldNode}
      (hmem : relation ∈ fields) (hrelation : relation.selectionSet ≠ []) :
      Selects parentTable fields parentTable relation
  | nested {table parentTable : String} {fields : List FieldNode} {field relation : FieldNode}
      (hmem : field ∈ fields) (h : Selects field.name field.selectionSet parentTable relation) :
      Selects table fields parentTable relation

theorem not_selects_nil {table parentTable : String} {relation : FieldNode} :
    ¬Selects table [] parentTable relation := by
  rintro (⟨hmem, -⟩ | ⟨hmem, -⟩)
  · cases hmem
  · cases hmem

/-- A selection set selects what its first field is, what that field selects and what the other
fields do. -/
theorem selects_cons_iff {table parentTable : String} {field relation : FieldNode}
    {fields : List FieldNode} :
    Selects table (field :: fields) parentTable relation ↔
      (parentTable = table ∧ relation = field ∧ field.selectionSet ≠ []) ∨
        Selects field.name field.selectionSet parentTable relation ∨
        Selects table fields parentTable relation := by
  constructor
  · rintro (⟨hmem, hrelation⟩ | ⟨hmem, h⟩)
    · rcases List.mem_cons.mp hmem with rfl | hmem
      · exact .inl ⟨rfl, rfl, hrelation⟩
      · exact .inr (.inr (.direct hmem hrelation))
    · rcases List.mem_cons.mp hmem with rfl | hmem
      · exact .inr (.inl h)
      · exact .inr (.inr (.nested hmem h))
  · rintro (⟨rfl, rfl, hrelation⟩ | h | h)
    · exact .direct List.mem_cons_self hrelation
    · exact .nested List.mem_cons_self h
    · cases h with
      | direct hmem hrelation => exact .direct (List.mem_cons_of_mem _ hmem) hrelation
      | nested hmem h => exact .nested (List.mem_cons_of_mem _ hmem) h

/-- Some relation below a selection set is read from the table. Every relation is looked up in
the schema of the root field. -/
def Catalog.LeadsTo (catalog : Catalog) (schema table : String) (fields : List FieldNode)
    (target : String × String) : Prop :=
  ∃ parentTable relation, Selects table fields parentTable relation ∧
    catalog.SendsTo schema parentTable relation.name target

namespace Compiler

variable (compiler : Compiler)

/-- The schema and the table of a root field. -/
def root (fieldNode : FieldNode) : String × String :=
  compiler.catalog.qualify compiler.defaultSchema fieldNode.name

/-- Some relation of a root field is read from the table. -/
def RootLeadsTo (fieldNode : FieldNode) (target : String × String) : Prop :=
  compiler.catalog.LeadsTo (compiler.root fieldNode).1 (compiler.root fieldNode).2
    fieldNode.selectionSet target

/-- A table that the configuration exposes. -/
def isExposed (table : String × String) : Bool :=
  compiler.isSchemaAllowed table.1 && !compiler.isTableExcluded table.1 table.2

/-! ## Tables of a compiled query -/

variable {compiler}

mutual

/-- The tables a relation reads: its own and those of its selections. -/
theorem mem_tables_compileNestedRelation {schema parentTable parentAlias : String}
    {startIndex depth : ℕ} {target : String × String} (hlinked : compiler.catalog.Linked) :
    ∀ {field : FieldNode} {query : Compiled Select},
    compiler.compileNestedRelation schema parentTable parentAlias startIndex depth field
      = .ok query →
    (target ∈ query.sql.tables ↔ compiler.catalog.SendsTo schema parentTable field.name target ∨
      compiler.catalog.LeadsTo schema field.name field.selectionSet target)
  | .mk relTable aliasName arguments selectionSet, query, h => by
    obtain ⟨-, pairs, conditions, orderBy, limit, offset, hpairs, -, -, rfl⟩ :=
      compileNestedRelation_ok h
    rw [Select.tables, List.mem_cons, mem_pairTables_compileSelections hlinked hpairs,
      ← sendsTo_iff hlinked]
    rfl

theorem mem_pairTables_compileSelections {schema table tableAlias : String}
    {argIndex depth : ℕ} {target : String × String} (hlinked : compiler.catalog.Linked) :
    ∀ {subFields : List FieldNode} {pairs : Compiled (List SelectPair)},
    compiler.compileSelections schema table tableAlias argIndex depth subFields = .ok pairs →
    (target ∈ pairTables pairs.sql ↔ compiler.catalog.LeadsTo schema table subFields target)
  | [], pairs, h => by
    cases h
    simp [pairTables, Catalog.LeadsTo, not_selects_nil]
  | subField :: subFields, pairs, h => by
    unfold Catalog.LeadsTo
    simp only [selects_cons_iff, or_and_right, exists_or]
    obtain ⟨-, ⟨hempty, -, rest, hrest, rfl⟩ | ⟨hempty, query, rest, hquery, hrest, rfl⟩⟩ :=
      compileSelections_cons_ok h
    · -- a leaf selects nothing
      rw [List.isEmpty_iff] at hempty
      rw [pairTables, mem_pairTables_compileSelections hlinked hrest]
      simp [hempty, not_selects_nil, Catalog.LeadsTo]
    · have hset : subField.selectionSet ≠ [] := by simpa using hempty
      rw [pairTables, List.mem_append, mem_tables_compileNestedRelation hlinked hquery,
        mem_pairTables_compileSelections hlinked hrest, or_assoc]
      refine or_congr ?_ Iff.rfl
      constructor
      · intro hsends
        exact ⟨table, subField, ⟨rfl, rfl, hset⟩, hsends⟩
      · rintro ⟨parentTable, relation, ⟨rfl, rfl, -⟩, hsends⟩
        exact hsends

end

/-- The default pairs of a root field hold no nested block. -/
theorem pairTables_defaultPairs (schema table tableAlias : String) :
    pairTables (compiler.defaultPairs schema table tableAlias) = [] :=
  defaultPairs_induction (P := fun pairs => pairTables pairs = []) rfl (fun _ ih => ih)
    fun _ _ _ _ _ ih => ih

variable {startIndex : ℕ} {fieldNode : FieldNode} {query : Compiled Select}

/-- A root field reads its own table and those that its relations lead to. -/
theorem mem_tables_compileRootQuery (hlinked : compiler.catalog.Linked)
    (h : compiler.compileRootQuery fieldNode startIndex = .ok query) (target : String × String) :
    target ∈ query.sql.tables ↔
      target = compiler.root fieldNode ∨ compiler.RootLeadsTo fieldNode target := by
  obtain ⟨schema, table, pairs, conditions, orderBy, limit, offset, hqualify, -, -, hpairs, -, -,
    rfl⟩ := compileRootQuery_ok h
  have hmem : target ∈ pairTables pairs.sql ↔
      compiler.catalog.LeadsTo schema table fieldNode.selectionSet target :=
    mem_pairTables_compileSelections hlinked hpairs
  rw [Select.tables, List.mem_cons, RootLeadsTo, root, hqualify]
  refine or_congr Iff.rfl ?_
  split
  · rename_i hempty
    rw [List.isEmpty_iff] at hempty
    rw [pairTables_defaultPairs, ← hmem, hempty, pairTables]
  · exact hmem

/-- The table of a root field was checked. -/
theorem isExposed_root (h : compiler.compileRootQuery fieldNode startIndex = .ok query) :
    compiler.isExposed (compiler.root fieldNode) := by
  obtain ⟨schema, table, -, -, -, -, -, hqualify, hcheck, -, -, -, -, -⟩ := compileRootQuery_ok h
  obtain ⟨hschema, htable, -⟩ := checkTable_ok hcheck
  simp [isExposed, root, hqualify, hschema, htable]

variable {rootFields : List FieldNode} {argIndex : ℕ}

/-- A query reads the tables of its root fields, all checked, and those that their relations
lead to. -/
theorem mem_tables_compileRootQueries (hlinked : compiler.catalog.Linked)
    {parts : Compiled (List (String × Select))}
    (h : compiler.compileRootQueries rootFields argIndex = .ok parts) :
    (∀ target, target ∈ (Statement.query parts.sql).tables ↔ ∃ fieldNode ∈ rootFields,
      target = compiler.root fieldNode ∨ compiler.RootLeadsTo fieldNode target) ∧
    ∀ fieldNode ∈ rootFields, compiler.isExposed (compiler.root fieldNode) := by
  induction rootFields generalizing argIndex parts with
  | nil =>
    cases h
    simp [Statement.tables]
  | cons rootField rootFields ih =>
    obtain ⟨query, rest, hquery, hrest, rfl⟩ := compileRootQueries_cons_ok h
    obtain ⟨htables, hexposed⟩ := ih hrest
    simp only [Statement.tables] at htables
    refine ⟨fun target => ?_, List.forall_mem_cons.mpr ⟨isExposed_root hquery, hexposed⟩⟩
    simp only [Statement.tables, List.flatMap_cons, List.mem_append, htables,
      mem_tables_compileRootQuery hlinked hquery, List.exists_mem_cons_iff]

/-! ## Tables of a compiled mutation -/

/-- A mutation writes a table that was checked. -/
theorem exposed_compileMutation {cteName : String} {mutationField : FieldNode}
    {cte : Compiled MutationCte}
    (h : compiler.compileMutation cteName mutationField argIndex = .ok cte) :
    compiler.isExposed cte.sql.table := by
  have hchecked : ∀ {schema table context : String},
      compiler.checkTable schema table context = .ok () →
      compiler.isExposed (schema, table) := by
    intro schema table context hcheck
    obtain ⟨hschema, htable, -⟩ := checkTable_ok hcheck
    simp [isExposed, hschema, htable]
  obtain ⟨-, h⟩ | ⟨-, -, h⟩ | ⟨-, -, -, h⟩ := compileMutation_ok h
  · obtain ⟨schema, table, -, -, -, -, -, hcheck, -, -, -, rfl⟩ := compileInsert_ok h
    exact hchecked hcheck
  · obtain ⟨schema, table, -, -, -, -, hcheck, -, -, -, rfl⟩ := compileUpdate_ok h
    exact hchecked hcheck
  · obtain ⟨schema, table, -, -, hcheck, -, rfl⟩ := compileDelete_ok h
    exact hchecked hcheck

/-- Each mutation checks the table that it names. -/
theorem exposed_compileMutations {fields : List FieldNode} {mutationIndex : ℕ}
    {parts : Compiled (List MutationCte × List MutationResult)}
    (h : compiler.compileMutations fields mutationIndex argIndex = .ok parts) :
    ∀ cte ∈ parts.sql.1, compiler.isExposed cte.table := by
  induction fields generalizing mutationIndex argIndex parts with
  | nil =>
    cases h
    simp
  | cons mutationField fields ih =>
    obtain ⟨cte, rest, hcte, hrest, rfl⟩ := compileMutations_cons_ok h
    intro cte' hmem
    rcases List.mem_cons.mp hmem with rfl | hmem
    · exact exposed_compileMutation hcte
    · exact ih hrest cte' hmem

/-! ## Confinement -/

/-- **Table confinement.** Over plain names a compiled operation prints identifiers only, and it
touches exposed tables only exactly when the catalog sends each relation of a query to an
exposed table; nothing in the compiler checks the latter. -/
theorem compile_tables_exposed_iff (compiler : Compiler) (hclean : compiler.Clean)
    (hlinked : compiler.catalog.Linked) (operationNode : OperationNode) (query : SQLQuery)
    (h : compiler.compile operationNode = .ok query) :
    (∀ name ∈ names query.statement.tokens, isIdentifierText name) ∧
    ((∀ table ∈ query.statement.tables, compiler.isExposed table) ↔
      (operationNode.type = .query → ∀ fieldNode ∈ operationNode.selectionSet,
        ∀ table, compiler.RootLeadsTo fieldNode table → compiler.isExposed table)) := by
  refine ⟨cleanTokens_compile hclean h, ?_⟩
  obtain ⟨htype, parts, hparts, rfl⟩ | ⟨htype, parts, hparts, rfl⟩ := compile_ok h
  · obtain ⟨htables, hexposed⟩ := mem_tables_compileRootQueries hlinked hparts
    simp only [htables]
    constructor
    · intro hall _ fieldNode hmem table hleads
      exact hall table ⟨fieldNode, hmem, .inr hleads⟩
    · rintro hall table ⟨fieldNode, hmem, rfl | hleads⟩
      · exact hexposed fieldNode hmem
      · exact hall htype fieldNode hmem table hleads
  · have hexposed := exposed_compileMutations hparts
    simpa [htype, Statement.tables] using hexposed

/-- A `public` schema whose posts point to the users of another schema. -/
def blogDatabase : Database :=
  [("public",
    [{ name := "posts", columns := [("id", "uuid", false), ("author_id", "uuid", false)]
       primaryKey := "id", foreignKeys := [⟨"author_id", "auth", "users", "id"⟩] },
     { name := "tags", columns := [("id", "uuid", false), ("post_id", "uuid", false)]
       primaryKey := "id", foreignKeys := [⟨"post_id", "public", "posts", "id"⟩] }])]

/-- The compiler over that database, restricted to the schema `public`. -/
def blogCompiler : Compiler :=
  { newCompiler (introspect blogDatabase ["public"]) "public" with allowedSchemas := ["public"] }

/-- `{ posts { id tags { id } } }`. -/
def postTagsOperation : OperationNode :=
  { type := .query, name := "", cacheTTL := 0, cacheKeySuffix := ""
    selectionSet := [.mk "posts" "" [] [.mk "id" "" [] [], .mk "tags" "" [] [.mk "id" "" [] []]]] }

/-- `{ posts { author { email } } }`. -/
def postAuthorsOperation : OperationNode :=
  { type := .query, name := "", cacheTTL := 0, cacheKeySuffix := ""
    selectionSet := [.mk "posts" "" [] [.mk "author" "" [] [.mk "email" "" [] []]]] }

/-- The names of that database are plain. -/
theorem blogCompiler_clean : blogCompiler.Clean ∧ blogCompiler.catalog.Linked := by
  obtain ⟨hclean, hlinked⟩ := clean_introspect ["public"] (show blogDatabase.isNamed by decide)
  exact ⟨⟨hclean, by decide⟩, hlinked⟩

/-- The tags of posts stay in the allowed schema. -/
theorem postTags_leadsTo {fieldNode : FieldNode} (hmem : fieldNode ∈ postTagsOperation.selectionSet)
    {table : String × String} (h : blogCompiler.RootLeadsTo fieldNode table) :
    table = ("public", "tags") := by
  obtain rfl := List.mem_singleton.mp hmem
  obtain ⟨parentTable, relation, hselects, hsends⟩ := h
  simp only [FieldNode.selectionSet, selects_cons_iff, FieldNode.name, not_selects_nil, ne_eq,
    not_true_eq_false, and_false, false_or, or_false, reduceCtorEq, not_false_eq_true,
    and_true] at hselects
  obtain ⟨rfl, rfl⟩ := hselects
  exact ((sendsTo_iff blogCompiler_clean.2).mp hsends).trans (by decide)

/-- A query whose relations stay in the allowed schema. -/
theorem postTags_tables_exposed :
    ∃ query, blogCompiler.compile postTagsOperation = .ok query ∧
      query.statement.tables = [("public", "posts"), ("public", "tags")] ∧
      ∀ table ∈ query.statement.tables, blogCompiler.isExposed table := by
  refine ⟨_, rfl, by decide, (compile_tables_exposed_iff blogCompiler blogCompiler_clean.1
    blogCompiler_clean.2 postTagsOperation _ rfl).2.mpr ?_⟩
  intro _ fieldNode hmem table hleads
  rw [postTags_leadsTo hmem hleads]
  decide

/-- A relation that the catalog sends to another schema is read although only `public` is
allowed. -/
theorem postAuthors_reads_foreign_schema :
    ∃ query, blogCompiler.compile postAuthorsOperation = .ok query ∧
      ("auth", "users") ∈ query.statement.tables ∧
      blogCompiler.isSchemaAllowed "auth" = false ∧
      query.sql = "SELECT json_build_object('posts', (SELECT COALESCE(json_agg(" ++
        "json_build_object('author', (SELECT COALESCE(json_agg(json_build_object(" ++
        "'email', t1.\"email\")), '[]'::json) FROM \"auth\".\"users\" t1 " ++
        "WHERE t1.\"id\" = t0.\"author_id\"))), '[]'::json) FROM \"public\".\"posts\" t0))" :=
  ⟨_, rfl, by decide, by decide, by decide +kernel⟩

end Compiler
end Layr.Graphql
