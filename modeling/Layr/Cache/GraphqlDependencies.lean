import Mathlib.Logic.Function.Basic
import Layr.Cache.GraphqlHandler
import Layr.Cache.Versions
import Layr.Graphql.CompilerTables
import Layr.Kv.KeyRecords

/-!
# The tables a cached query depends on (`data/base_handler_graphql.go`)

The key of a cached query is made with the versions of the tables that `resolveGraphQLTables`
finds. It walks the operation beside the compiler and knows less: a relation is a table of the root
field's schema with the name of the field, or its singular or plural, while the compiler follows the
foreign keys of the catalog, under their aliases and into other schemas.
-/

namespace Layr.Cache.Graphql

open Go Kv Layr.Graphql Compiler

/-! ## References of an operation -/

/-- The table that `resolveNestedGraphQLTables` takes a relation for. -/
def referencedTable (catalog : Catalog) (schema relationTable : String) : Option String :=
  if (catalog.getTable schema relationTable).isSome then some relationTable
  else if Strings.hasSuffix relationTable "s" then
    let singular := Strings.trimSuffix relationTable "s"
    if (catalog.getTable schema singular).isSome then some singular else none
  else
    let plural := relationTable ++ "s"
    if (catalog.getTable schema plural).isSome then some plural else none

mutual

/-- One field of `resolveNestedGraphQLTables`. -/
def nestedReferences (catalog : Catalog) (schema : String) : FieldNode → List GraphQLTableRef
  | .mk relationTable _ _ selectionSet =>
    if selectionSet.isEmpty then []
    else (referencedTable catalog schema relationTable).toList.map (⟨schema, ·⟩) ++
      resolveNestedGraphQLTables catalog schema selectionSet

/-- `resolveNestedGraphQLTables`. -/
def resolveNestedGraphQLTables (catalog : Catalog) (schema : String) :
    List FieldNode → List GraphQLTableRef
  | [] => []
  | subField :: subFields =>
    nestedReferences catalog schema subField ++ resolveNestedGraphQLTables catalog schema subFields

end

/-- `resolveGraphQLTables`. -/
def resolveGraphQLTables (catalog : Catalog) (operationNode : OperationNode) :
    List GraphQLTableRef :=
  operationNode.selectionSet.flatMap fun fieldNode =>
    let (targetSchema, targetTable) := catalog.qualify "public" fieldNode.name
    ⟨targetSchema, targetTable⟩ ::
      resolveNestedGraphQLTables catalog targetSchema fieldNode.selectionSet

/-- A table of the compiler as a reference. -/
def toRef (table : String × String) : GraphQLTableRef := ⟨table.1, table.2⟩

/-! ## Versions and keys -/

/-- The versions of all tables. -/
abbrev Versions := GraphQLTableRef → ℤ

variable {references : List GraphQLTableRef} {versions : Versions}

/-- The version that a write leaves behind: the increment, or 1 where that would get too large. -/
def nextVersion (version : ℤ) : ℤ := if version + 1 ≥ maxSafeVersion then 1 else version + 1

/-- The versions behind a write of a table. -/
def Versions.written (versions : Versions) (reference : GraphQLTableRef) : Versions :=
  Function.update versions reference (nextVersion (versions reference))

/-- `tableVersion` of the handler. -/
def Versions.combined (versions : Versions) (references : List GraphQLTableRef) : ℤ :=
  getGraphQLTableCacheVersion (references.map fun reference => (reference, versions reference))

/-- The text that is hashed for several references. -/
def Versions.text (versions : Versions) (references : List GraphQLTableRef) : String :=
  String.join (references.map fun reference =>
    reference.schema ++ "." ++ reference.table ++ ":" ++ Kv.decimal (versions reference) ++ ";")

/-- The texts of several references differ, and their hashes do not. -/
def Collide (references : List GraphQLTableRef) (versions versions' : Versions) : Prop :=
  2 ≤ references.length ∧ versions.text references ≠ versions'.text references ∧
    maskedSum (versions.text references) = maskedSum (versions'.text references)

theorem nextVersion_ne (version : ℤ) : nextVersion version ≠ version := by
  unfold nextVersion maxSafeVersion
  split <;> omega

/-- A write of another table changes no version. -/
theorem combined_written_of_notMem {reference : GraphQLTableRef} (h : reference ∉ references) :
    (versions.written reference).combined references = versions.combined references := by
  unfold Versions.combined
  congr 1
  apply List.map_congr_left
  intro other hother
  have hne : other ≠ reference := by
    rintro rfl
    exact h hother
  rw [Versions.written, Function.update_of_ne hne]

/-- The text determines the versions of the references in it. -/
theorem versions_eq_of_text_eq {versions' : Versions}
    (h : versions.text references = versions'.text references) :
    ∀ reference ∈ references, versions reference = versions' reference := by
  have hsemicolon : ∀ n, ';' ∉ Strconv.formatInt n := Strconv.not_mem_formatInt (by decide)
  have hjoin : ∀ (head : String) (tail : List String),
      (String.join (head :: tail)).toList = head.toList ++ (String.join tail).toList := by
    intro head tail
    rw [String.join_cons, String.toList_append]
  induction references with
  | nil => simp
  | cons first references ih =>
    have hlist := congrArg String.toList h
    simp only [Versions.text, List.map_cons, hjoin, String.toList_append, List.append_assoc,
      Kv.decimal, String.toList_ofList] at hlist
    -- the names in front agree, and a number ends at its semicolon
    have hnames := List.append_cancel_left hlist
    have hdot := List.append_cancel_left hnames
    have htable := List.append_cancel_left hdot
    have hcolon := List.append_cancel_left htable
    obtain ⟨hversion, hrest⟩ := Codes.append_cons_inj (hsemicolon _) (hsemicolon _) hcolon
    intro reference hmem
    rcases List.mem_cons.mp hmem with rfl | hmem
    · exact Strconv.formatInt_injective hversion
    · exact ih (String.toList_inj.mp hrest) reference hmem

/-- A write of a referenced table changes the combined version, unless the hashes collide. -/
theorem combined_written_ne_iff {reference : GraphQLTableRef} :
    (versions.written reference).combined references ≠ versions.combined references ↔
      reference ∈ references ∧ ¬Collide references (versions.written reference) versions := by
  have hwritten : versions.written reference reference ≠ versions reference := by
    rw [Versions.written, Function.update_self]
    exact nextVersion_ne _
  have hsums : ∀ versions : Versions, 2 ≤ references.length →
      versions.combined references = maskedSum (versions.text references) := by
    intro versions hlength
    obtain _ | ⟨first, _ | ⟨second, rest⟩⟩ := references
    · simp at hlength
    · simp at hlength
    · simp [Versions.combined, getGraphQLTableCacheVersion, Versions.text, Function.comp_def]
  constructor
  · intro hne
    have hmem : reference ∈ references := by
      by_contra hnotMem
      exact hne (combined_written_of_notMem hnotMem)
    refine ⟨hmem, ?_⟩
    rintro ⟨hlength, -, hcollide⟩
    rw [hsums _ hlength, hsums _ hlength] at hne
    exact hne hcollide
  · rintro ⟨hmem, hcollide⟩ hsame
    by_cases hlength : 2 ≤ references.length
    · rw [hsums _ hlength, hsums _ hlength] at hsame
      refine hcollide ⟨hlength, ?_, hsame⟩
      intro htext
      exact hwritten (versions_eq_of_text_eq htext reference hmem)
    · -- the version of a single reference is the combined one
      obtain _ | ⟨only, _ | ⟨second, rest⟩⟩ := references
      · cases hmem
      · obtain rfl := List.mem_singleton.mp hmem
        exact hwritten hsame
      · simp at hlength

section

variable (digest : Digest) (format : FloatFormat) (authContext : AuthContext)
  (request : GraphqlRequest) (input : ExecuteGraphQLInput) (catalog : Catalog)
  (operationNode : OperationNode)

/-- `internalCacheKey`, with the versions of the referenced tables. -/
def dependentKey (versions : Versions) : String :=
  requestKey digest format (fun node => versions.combined (resolveGraphQLTables catalog node))
    authContext request input operationNode

variable {digest format authContext request input catalog operationNode}

/-- Only a key without a suffix is made with the combined version. -/
theorem dependentKey_eq_iff {versions' : Versions} :
    dependentKey digest format authContext request input catalog operationNode versions =
        dependentKey digest format authContext request input catalog operationNode versions' ↔
      keySuffix request operationNode ≠ "" ∨
        versions.combined (resolveGraphQLTables catalog operationNode) =
          versions'.combined (resolveGraphQLTables catalog operationNode) := by
  unfold dependentKey requestKey buildGraphQLQueryKeyWithVersion
  by_cases hsuffix : keySuffix request operationNode = ""
  · rw [if_neg (by simp [hsuffix]), if_neg (by simp [hsuffix])]
    constructor
    · intro h
      exact .inr (GraphQLQueryTuple.eq_of_key_eq h).2.1
    · rintro (hne | hversion)
      · exact absurd hsuffix hne
      · simp only [hversion]
  · rw [if_pos hsuffix, if_pos hsuffix]
    exact ⟨fun _ => .inl hsuffix, fun _ => rfl⟩

end

/-! ## The references over the catalog -/

/-- The references of an operation: the tables of its root fields and, in their schemas, the
tables that relations are named after. -/
inductive Referenced (catalog : Catalog) (operationNode : OperationNode) : String × String → Prop
  | root {fieldNode : FieldNode} (hmem : fieldNode ∈ operationNode.selectionSet) :
      Referenced catalog operationNode (catalog.qualify "public" fieldNode.name)
  | relation {fieldNode relation : FieldNode} {parentTable table : String}
      (hmem : fieldNode ∈ operationNode.selectionSet)
      (hselects : Selects (catalog.qualify "public" fieldNode.name).2 fieldNode.selectionSet
        parentTable relation)
      (hnamed : catalog.NamedAfter (catalog.qualify "public" fieldNode.name).1 relation.name
        table) :
      Referenced catalog operationNode ((catalog.qualify "public" fieldNode.name).1, table)

/-- The lookup of `resolveNestedGraphQLTables` finds what the relation is named after. -/
theorem referencedTable_eq_some_iff {catalog : Catalog} {schema relationTable table : String} :
    referencedTable catalog schema relationTable = some table ↔
      catalog.NamedAfter schema relationTable table := by
  unfold referencedTable
  constructor
  · intro h
    split_ifs at h with hsame hsuffix
    · obtain rfl := Option.some.inj h
      exact .same hsame
    · dsimp only at h
      split_ifs at h with hsingular
      obtain rfl := Option.some.inj h
      exact .singular (by simpa using hsame) (Strings.eq_append_of_hasSuffix hsuffix) hsingular
    · dsimp only at h
      split_ifs at h with hplural
      obtain rfl := Option.some.inj h
      refine .plural (by simpa using hsame) ?_ hplural
      rintro table rfl
      simp at hsuffix
  · intro h
    cases h with
    | same h => rw [if_pos h]
    | singular hnone hname h =>
      rw [hname] at hnone ⊢
      simp [hnone, h]
    | plural hnone hname h =>
      have hsuffix : Strings.hasSuffix relationTable "s" = false := by
        by_contra hs
        exact hname _ (Strings.eq_append_of_hasSuffix (by simpa using hs))
      simp [hnone, hsuffix, h]

mutual

theorem mem_nestedReferences {catalog : Catalog} {schema : String} {target : String × String} :
    ∀ {field : FieldNode}, toRef target ∈ nestedReferences catalog schema field ↔
      target.1 = schema ∧ ((field.selectionSet ≠ [] ∧
          catalog.NamedAfter schema field.name target.2) ∨
        ∃ parentTable relation, Selects field.name field.selectionSet parentTable relation ∧
          catalog.NamedAfter schema relation.name target.2)
  | .mk relationTable aliasName arguments selectionSet => by
    rw [nestedReferences]
    simp only [FieldNode.name, FieldNode.selectionSet]
    split
    · rename_i hempty
      rw [List.isEmpty_iff] at hempty
      simp [hempty, not_selects_nil]
    · rename_i hset
      have hset : selectionSet ≠ [] := by simpa using hset
      rw [List.mem_append, mem_resolveNestedGraphQLTables relationTable]
      simp only [List.mem_map, Option.mem_toList, referencedTable_eq_some_iff,
        toRef, GraphQLTableRef.mk.injEq, hset, ne_eq, not_false_eq_true, true_and, and_or_left]
      refine or_congr ?_ Iff.rfl
      constructor
      · rintro ⟨table, hnamed, hschema, rfl⟩
        exact ⟨hschema.symm, hnamed⟩
      · rintro ⟨hschema, hnamed⟩
        exact ⟨target.2, hnamed, hschema.symm, rfl⟩

theorem mem_resolveNestedGraphQLTables {catalog : Catalog} {schema : String}
    {target : String × String} (table : String) :
    ∀ {fields : List FieldNode}, toRef target ∈ resolveNestedGraphQLTables catalog schema fields ↔
      target.1 = schema ∧ ∃ parentTable relation, Selects table fields parentTable relation ∧
        catalog.NamedAfter schema relation.name target.2
  | [] => by simp [resolveNestedGraphQLTables, not_selects_nil]
  | subField :: subFields => by
    rw [resolveNestedGraphQLTables, List.mem_append, mem_nestedReferences,
      mem_resolveNestedGraphQLTables table]
    simp only [selects_cons_iff, or_and_right, exists_or, ← and_or_left, or_assoc]
    refine and_congr_right fun _ => or_congr ?_ Iff.rfl
    constructor
    · rintro ⟨hset, hnamed⟩
      exact ⟨table, subField, ⟨rfl, rfl, hset⟩, hnamed⟩
    · rintro ⟨parentTable, relation, ⟨rfl, rfl, hset⟩, hnamed⟩
      exact ⟨hset, hnamed⟩

end

/-- `resolveGraphQLTables` lists the references. -/
theorem mem_resolveGraphQLTables {catalog : Catalog} {operationNode : OperationNode}
    {target : String × String} :
    toRef target ∈ resolveGraphQLTables catalog operationNode ↔
      Referenced catalog operationNode target := by
  unfold resolveGraphQLTables
  simp only [List.mem_flatMap, List.mem_cons]
  constructor
  · rintro ⟨fieldNode, hmem, hroot | hnested⟩
    · obtain rfl : target = catalog.qualify "public" fieldNode.name := by
        rw [toRef, GraphQLTableRef.mk.injEq] at hroot
        exact Prod.ext hroot.1 hroot.2
      exact .root hmem
    · obtain ⟨hschema, parentTable, relation, hselects, hnamed⟩ :=
        (mem_resolveNestedGraphQLTables _).mp hnested
      obtain ⟨schema, table⟩ := target
      obtain rfl := hschema
      exact .relation hmem hselects hnamed
  · intro h
    cases h with
    | root hmem => exact ⟨_, hmem, .inl rfl⟩
    | relation hmem hselects hnamed =>
      exact ⟨_, hmem, .inr ((mem_resolveNestedGraphQLTables _).mpr
        ⟨rfl, _, _, hselects, hnamed⟩)⟩

/-! ## Completeness -/

end Layr.Cache.Graphql
