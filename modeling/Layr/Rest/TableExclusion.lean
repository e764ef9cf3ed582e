import Layr.Cache.ListSystem
import Layr.Rest.Accepted
import Layr.Rest.Builder

/-!
# Tables that list requests read (`data/base_handler_rest.go`)

`prepareTableContext` holds the table of the path against the exposed schemas and the excluded
tables. The relations that the query embeds are held against neither: they are read from the schema
of the path, under the table that a foreign key leads to, or the relation's own name where there is
none. A statement is kept as its text with the pieces that the text is printed from, so that its
`FROM` clauses are those of the text.
-/

namespace Layr.Rest

open Go Cache.Listing

variable {builder : QueryBuilder} {queryParams : QueryParams} {metadata : TableMetadata}
  {name : TableName}

/-! ## Statements and their sources -/

/-- A piece of a statement: a `FROM` clause, or text around it. -/
inductive Piece
  | text (content : String)
  | source (name : TableName)
deriving DecidableEq, Repr

def Piece.sql : Piece → String
  | text content => content
  | source name => "FROM " ++ qualified name.schema name.table

/-- The table of a `FROM` clause. -/
def Piece.table : Piece → Option TableName
  | text _ => none
  | source name => some name

def render : List Piece → String
  | [] => ""
  | piece :: pieces => piece.sql ++ render pieces

def joinPieces (sep : String) : List (List Piece) → List Piece
  | [] => []
  | [part] => part
  | part :: next :: parts => part ++ .text sep :: joinPieces sep (next :: parts)

/-- `SQLStatement.SQL`, with the pieces it consists of. -/
structure SQLStatement where
  sql : String
  pieces : List Piece
  sql_eq : sql = render pieces

/-- The tables in the `FROM` clauses of a statement, those of its sub-selects included. -/
def SQLStatement.tables (statement : SQLStatement) : List TableName :=
  statement.pieces.filterMap Piece.table

@[simp]
theorem render_append (pieces pieces' : List Piece) :
    render (pieces ++ pieces') = render pieces ++ render pieces' := by
  induction pieces with
  | nil => simp [render]
  | cons piece pieces ih => simp only [List.cons_append, render, ih, String.append_assoc]

theorem render_joinPieces (sep : String) (parts : List (List Piece)) :
    render (joinPieces sep parts) = Strings.join sep (parts.map render) := by
  fun_induction joinPieces sep parts with
  | case1 => rfl
  | case2 part => rfl
  | case3 part next parts ih =>
    rw [render_append, render, ih]
    simp only [Piece.sql, List.map_cons, Strings.join, String.append_assoc]

theorem mem_joinPieces_source {sep : String} {parts : List (List Piece)} :
    .source name ∈ joinPieces sep parts ↔ ∃ part ∈ parts, .source name ∈ part := by
  fun_induction joinPieces sep parts with
  | case1 => simp
  | case2 part => simp
  | case3 part next parts ih =>
    rw [List.mem_append, List.mem_cons, ih]
    simp

theorem SQLStatement.mem_tables {statement : SQLStatement} :
    name ∈ statement.tables ↔ .source name ∈ statement.pieces := by
  rw [SQLStatement.tables, List.mem_filterMap]
  constructor
  · rintro ⟨piece, hmem, htable⟩
    cases piece with
    | text content => cases htable
    | source other =>
      cases htable
      exact hmem
  · intro hmem
    exact ⟨.source name, hmem, rfl⟩

/-! ## Pieces of the built statements -/

/-- The table that an embedded relation is read from. -/
def embeddedTable (metadata : TableMetadata) (embedded : EmbeddedField) : String :=
  match metadata.foreignKeys.get embedded.relation with
  | some foreignKey => foreignKey.toTable
  | none => embedded.relation

/-- The condition that joins an embedded relation to its row. -/
def embeddedCondition (builder : QueryBuilder) (metadata : TableMetadata)
    (embedded : EmbeddedField) : String :=
  match metadata.foreignKeys.get embedded.relation with
  | some foreignKey =>
    "r.\"" ++ foreignKey.toColumn ++ "\" = " ++ qualified builder.table foreignKey.fromColumn
  | none =>
    "r.\"" ++ (Strings.trimSuffix builder.table "s" ++ "_id") ++ "\" = " ++
      qualified builder.table (if metadata.primaryKey = "" then "id" else metadata.primaryKey)

def embeddedPieces (builder : QueryBuilder) (metadata : TableMetadata) (embedded : EmbeddedField) :
    List Piece :=
  [.text ("(\n\t\t\t\tSELECT COALESCE(json_agg(" ++ jsonAggExpression embedded.fields ++
      "), '[]'::json)\n\t\t\t\t"),
    .source ⟨builder.schema, embeddedTable metadata embedded⟩,
    .text (" r\n\t\t\t\tWHERE " ++ embeddedCondition builder metadata embedded ++
      "\n\t\t\t) AS \"" ++ embedded.relation ++ "\"")]

theorem render_embeddedPieces (builder : QueryBuilder) (metadata : TableMetadata)
    (embedded : EmbeddedField) :
    render (embeddedPieces builder metadata embedded) =
      embeddedColumn builder metadata embedded := by
  unfold embeddedPieces embeddedColumn embeddedTable embeddedCondition
  rw [← String.toList_inj]
  cases metadata.foreignKeys.get embedded.relation <;>
    simp [render, Piece.sql, qualified, String.toList_append]

/-- What a statement has behind its table. -/
def Select.behind (select : Select) : String :=
  whereText select.table select.clauses ++
    (if select.orders = [] then ""
      else " ORDER BY " ++ Strings.join ", " (select.orders.map (orderText select.table))) ++
    (if select.limit > 0 then " LIMIT " ++ Kv.decimal select.limit else "") ++
    (if select.offset > 0 then " OFFSET " ++ Kv.decimal select.offset else "")

def selectPieces (builder : QueryBuilder) (metadata : TableMetadata) (queryParams : QueryParams)
    (select : Select) : List Piece :=
  [.text "SELECT "] ++
    joinPieces ", "
      ((if queryParams.fields = [] then ["*"] else queryParams.fields).map
        (fun field => [.text (fieldColumn builder.table field)]) ++
      queryParams.embedded.map (embeddedPieces builder metadata)) ++
    [.text " ", .source ⟨select.schema, select.table⟩, .text select.behind]

theorem render_selectPieces {select : Select}
    (h : select.columns = selectColumns builder metadata queryParams) :
    select.sql = render (selectPieces builder metadata queryParams select) := by
  have hfields : render ∘ (fun field => [Piece.text (fieldColumn builder.table field)]) =
      fieldColumn builder.table := by
    funext field
    exact String.append_empty
  have hembedded : render ∘ embeddedPieces builder metadata = embeddedColumn builder metadata :=
    funext (render_embeddedPieces builder metadata)
  unfold selectPieces Select.sql Select.behind
  rw [render_append, render_append, render_joinPieces, List.map_append, List.map_map, List.map_map,
    hfields, hembedded, h, selectColumns, ← String.toList_inj]
  simp [render, Piece.sql, String.toList_append]

/-! ## The statements of a list request -/

/-- The statement that `handleListRecords` runs. It drops the error of `BuildSelect`, whose
statement is then empty. -/
def selectStatement (builder : QueryBuilder) (queryParams : QueryParams)
    (metadata : TableMetadata) : SQLStatement :=
  match h : buildSelect builder queryParams metadata with
  | .error _ => ⟨"", [], rfl⟩
  | .ok select =>
    ⟨select.sql, selectPieces builder metadata queryParams select, by
      obtain ⟨clauses, -, h⟩ := Result.bind_eq_ok.mp h
      cases h
      exact render_selectPieces rfl⟩

/-- The statement of `BuildCount`. -/
def countStatement (builder : QueryBuilder) (queryParams : QueryParams) : Option SQLStatement :=
  match buildWhere queryParams.filters with
  | .error _ => none
  | .ok clauses =>
    some ⟨"SELECT COUNT(*) FROM " ++ qualified builder.schema builder.table ++
        whereText builder.table clauses,
      [.text "SELECT COUNT(*) ", .source ⟨builder.schema, builder.table⟩,
        .text (whereText builder.table clauses)], by
      rw [← String.toList_inj]
      simp [render, Piece.sql, String.toList_append]⟩

/-- Why a list request is rejected. -/
inductive Rejection
  | restDisabled
  | invalidPath
  | schemaNotExposed
  | tableExcluded
  | invalidQuery (cause : ParamError)
deriving DecidableEq, Repr

/-- The status and the message of a rejection. -/
def Rejection.response : Rejection → ℕ × String
  | restDisabled => (403, "Access denied")
  | invalidPath => (400, "Invalid request path")
  | schemaNotExposed => (403, "Access denied")
  | tableExcluded => (403, "Access denied")
  | invalidQuery _ => (400, "Invalid query parameters")

/-- The path of a request: the values that the router took from it, and its text. -/
structure RequestPath where
  schemaName : String
  tableName : String
  text : String
deriving DecidableEq, Repr

/-- `parsePath`, without the record. -/
def parsePath (path : String) : Option TableName :=
  match Strings.split '/' (Strings.trimPrefix path "/v1/data/") with
  | schema :: table :: _ => if schema = "" ∨ table = "" then none else some ⟨schema, table⟩
  | _ => none

/-- `extractSchemaTableAndRecordID`, without the record. -/
def RequestPath.extract (path : RequestPath) : Option TableName :=
  if path.schemaName ≠ "" ∧ path.tableName ≠ "" then some ⟨path.schemaName, path.tableName⟩
  else parsePath path.text

/-- The schema of a table is exposed. -/
def exposesSchema (config : Config) (name : TableName) : Bool :=
  config.schemas.contains name.schema

/-- A table is excluded, by its name or by its schema and name. -/
def excludesTable (config : Config) (name : TableName) : Bool :=
  config.excludedTables.any fun excluded =>
    excluded = name.table || excluded = name.schema ++ "." ++ name.table

/-- `prepareTableContext`. A table that introspection has not seen has no foreign keys. -/
def prepareTableContext (config : Config) (tables : GoMap TableMetadata) (path : RequestPath) :
    Except Rejection (TableName × TableMetadata) :=
  if !config.restEnabled then .error .restDisabled
  else
    match path.extract with
    | none => .error .invalidPath
    | some name =>
      if !isValidIdentifier name.schema || !isValidIdentifier name.table then .error .invalidPath
      else if !exposesSchema config name then .error .schemaNotExposed
      else if excludesTable config name then .error .tableExcluded
      else .ok (name, (tables.get (name.schema ++ "." ++ name.table)).getD ⟨"id", []⟩)

/-- The statements of `handleListRecords`, where its answer is not cached. -/
def listStatements (config : Config) (tables : GoMap TableMetadata) (path : RequestPath)
    (urlValues : GoMap (List String)) : Except Rejection (List SQLStatement) := do
  let (name, metadata) ← prepareTableContext config tables path
  let queryParams ←
    (parseQueryParams urlValues config.defaultLimit config.maxLimit).mapError .invalidQuery
  let builder := newQueryBuilder name.schema name.table
  .ok (selectStatement builder queryParams metadata ::
    if queryParams.countExact then (countStatement builder queryParams).toList else [])

/-! ## What the checks establish -/

theorem prepareTableContext_ok {config : Config} {tables : GoMap TableMetadata} {path : RequestPath}
    (h : prepareTableContext config tables path = .ok (name, metadata)) :
    name.schema ≠ "" ∧ exposesSchema config name ∧ excludesTable config name = false := by
  unfold prepareTableContext at h
  split at h
  · cases h
  split at h
  · cases h
  rename_i other _
  split at h
  · cases h
  rename_i hvalid
  split at h
  · cases h
  rename_i hschema
  split at h
  · cases h
  rename_i htable
  obtain ⟨rfl, -⟩ := Prod.mk.inj (Except.ok.inj h)
  refine ⟨?_, by simpa using hschema, by simpa using htable⟩
  intro hempty
  rw [hempty] at hvalid
  exact hvalid rfl

theorem buildWhere_ok {filters : List FilterOp}
    (h : ∀ filterOp ∈ filters, isValidIdentifier filterOp.column) :
    ∃ clauses, buildWhere filters = .ok clauses := by
  induction filters with
  | nil => exact ⟨[], rfl⟩
  | cons filterOp filters ih =>
    obtain ⟨clauses, hclauses⟩ := ih fun filterOp hmem => h filterOp (List.mem_cons_of_mem _ hmem)
    refine ⟨buildClause filterOp :: clauses, ?_⟩
    rw [buildWhere, h filterOp List.mem_cons_self, hclauses]
    rfl

/-- The sources of the statement are the table of the builder and those of the relations. -/
theorem mem_selectStatement_tables (haccepted : queryParams.Accepted) {source : TableName} :
    source ∈ (selectStatement builder queryParams metadata).tables ↔
      source = ⟨builder.schema, builder.table⟩ ∨
        ∃ embedded ∈ queryParams.embedded,
          source = ⟨builder.schema, embeddedTable metadata embedded⟩ := by
  obtain ⟨clauses, hclauses⟩ := buildWhere_ok fun f hf => (haccepted.filters f hf).column
  rw [SQLStatement.mem_tables, selectStatement]
  split
  · rename_i hbuild
    rw [buildSelect, hclauses] at hbuild
    cases hbuild
  · rename_i select hbuild
    rw [buildSelect, hclauses] at hbuild
    cases hbuild
    simp only [selectPieces, List.mem_append, mem_joinPieces_source]
    constructor
    · rintro ((htext | ⟨part, hpart | hpart, hsource⟩) | hroot)
      · simp at htext
      · obtain ⟨field, -, rfl⟩ := List.mem_map.mp hpart
        simp at hsource
      · obtain ⟨embedded, hmem, rfl⟩ := List.mem_map.mp hpart
        exact .inr ⟨embedded, hmem, by simpa [embeddedPieces] using hsource⟩
      · exact .inl (by simpa using hroot)
    · rintro (rfl | ⟨embedded, hmem, rfl⟩)
      · exact .inr (by simp)
      · refine .inl (.inr ⟨_, .inr (List.mem_map_of_mem hmem), ?_⟩)
        simp [embeddedPieces]

theorem mem_countStatement_tables {statement : SQLStatement}
    (h : countStatement builder queryParams = some statement) {source : TableName}
    (hsource : source ∈ statement.tables) : source = ⟨builder.schema, builder.table⟩ := by
  unfold countStatement at h
  split at h
  · cases h
  · cases h
    rw [SQLStatement.mem_tables] at hsource
    simpa using hsource

/-- Every table that the statements of a list request read is in an exposed schema and not
excluded exactly when no embedded relation leads to an excluded table. The checks of the path
settle the schema of all of them, but the name of the path's own table only. The keys and columns
of the metadata are taken to be identifiers, since they stand in the text around the tables. -/
theorem listed_tables_exposed_iff (config : Config) (tables : GoMap TableMetadata)
    (path : RequestPath) (urlValues : GoMap (List String)) {name : TableName}
    {metadata : TableMetadata} {queryParams : QueryParams}
    (hname : prepareTableContext config tables path = .ok (name, metadata))
    (hparams : parseQueryParams urlValues config.defaultLimit config.maxLimit = .ok queryParams) :
    ∃ statements, listStatements config tables path urlValues = .ok statements ∧
      ((∀ statement ∈ statements, ∀ source ∈ statement.tables,
          exposesSchema config source ∧ excludesTable config source = false) ↔
        ∀ embedded ∈ queryParams.embedded,
          excludesTable config ⟨name.schema, embeddedTable metadata embedded⟩ = false) := by
  obtain ⟨hschema, hexposed, hincluded⟩ := prepareTableContext_ok hname
  have haccepted := parseQueryParams_accepted hparams
  have hbuilder : newQueryBuilder name.schema name.table = ⟨name.schema, name.table⟩ := by
    rw [newQueryBuilder, if_neg hschema]
  refine ⟨selectStatement ⟨name.schema, name.table⟩ queryParams metadata ::
    if queryParams.countExact then
      (countStatement ⟨name.schema, name.table⟩ queryParams).toList else [], ?_, ?_⟩
  · rw [← hbuilder, listStatements, hname, hparams]
    rfl
  constructor
  · intro hall embedded hmem
    refine (hall _ List.mem_cons_self _ ?_).2
    exact (mem_selectStatement_tables haccepted).mpr (.inr ⟨embedded, hmem, rfl⟩)
  · intro hembedded statement hstatement source hsource
    rcases List.mem_cons.mp hstatement with rfl | hcount
    · rcases (mem_selectStatement_tables haccepted).mp hsource with rfl | ⟨embedded, hmem, rfl⟩
      · exact ⟨hexposed, hincluded⟩
      · -- the relation is read from the schema of the path
        exact ⟨hexposed, hembedded embedded hmem⟩
    · split at hcount
      · have hsome := Option.mem_toList.mp hcount
        obtain rfl := mem_countStatement_tables hsome hsource
        exact ⟨hexposed, hincluded⟩
      · cases hcount

/-- One exposed schema, with one excluded table. -/
def secretsConfig : Config where
  enabled := false
  invalidateOnMutation := false
  maxCachedQueries := 0
  queryTTLSeconds := 0
  restEnabled := true
  defaultLimit := 20
  maxLimit := 100
  schemas := ["public"]
  excludedTables := ["secrets"]

def usersPath : RequestPath := ⟨"public", "users", "/v1/data/public/users"⟩

/-- The parameters of `select=*,secrets(*)`, and of the same with another relation. -/
def embeddingParams (relation : String) : QueryParams where
  fields := ["*"]
  embedded := [.mk relation ["*"] []]
  filters := []
  orders := []
  limit := 20
  offset := 0
  countExact := false
  onConflict := ""

/-- With another relation than the excluded one, all tables are exposed. -/
theorem listed_tables_exposed_posts :
    ∃ statements, listStatements secretsConfig [] usersPath [("select", ["*,posts(*)"])] =
        .ok statements ∧
      ∀ statement ∈ statements, ∀ source ∈ statement.tables,
        exposesSchema secretsConfig source ∧
          excludesTable secretsConfig source = false := by
  have hname : prepareTableContext secretsConfig [] usersPath =
      .ok (⟨"public", "users"⟩, ⟨"id", []⟩) := by decide +kernel
  have hparams : parseQueryParams [("select", ["*,posts(*)"])] secretsConfig.defaultLimit
      secretsConfig.maxLimit = .ok (embeddingParams "posts") := by rfl
  obtain ⟨statements, hstatements, hiff⟩ := listed_tables_exposed_iff secretsConfig [] usersPath
    [("select", ["*,posts(*)"])] hname hparams
  exact ⟨statements, hstatements, hiff.mpr (by decide +kernel)⟩

/-- An excluded table is read as a relation of another one. -/
theorem excluded_table_embedded :
    ∃ statement,
      listStatements secretsConfig [] usersPath [("select", ["*,secrets(*)"])] = .ok [statement] ∧
      statement.sql = "SELECT \"users\".*, (\n\t\t\t\tSELECT COALESCE(json_agg(to_json(r)), " ++
        "'[]'::json)\n\t\t\t\tFROM \"public\".\"secrets\" r\n\t\t\t\tWHERE r.\"user_id\" = " ++
        "\"users\".\"id\"\n\t\t\t) AS \"secrets\" FROM \"public\".\"users\" LIMIT 20" ∧
      ⟨"public", "secrets"⟩ ∈ statement.tables ∧
      excludesTable secretsConfig ⟨"public", "secrets"⟩ := by
  refine ⟨selectStatement ⟨"public", "users"⟩ (embeddingParams "secrets")
    ⟨"id", []⟩, ?_, ?_, ?_, ?_⟩
  · rfl
  · decide +kernel
  · decide +kernel
  · decide

end Layr.Rest
