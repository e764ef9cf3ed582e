import Layr.Rest.Accepted
import Layr.Rest.Builder

/-!
# What a list request returns

The statement of a list request should give everything that its `select` parameter names.
`BuildSelect` reads the fields of embedded relations and not their children, and it names columns
as soon as one field is a name.
-/

namespace Layr.Rest

open Go

/-! ## Columns and relations -/

/-- What the rows of an answer hold: columns, and relations with what their rows hold. -/
inductive Output
  | column (name : String)
  | relation (name : String) (outputs : List Output)

/-- The object that a sub-select makes of a row: its named columns, or the row itself. -/
inductive RowObject
  | named (columns : List String)
  | whole

/-- `jsonAggExpression` as data. -/
def rowObject (fields : List String) : RowObject :=
  if fields ≠ [] ∧ fields ≠ ["*"] ∧ fields.filter isValidIdentifier ≠ [] then
    .named (fields.filter isValidIdentifier)
  else .whole

def RowObject.text : RowObject → String
  | named columns => "json_build_object(" ++
      Strings.join ", " (columns.map fun field => "'" ++ field ++ "', r.\"" ++ field ++ "\"") ++ ")"
  | whole => "to_json(r)"

/-- What the object of a row holds, given the columns of its table. -/
def RowObject.outputs (columns : List String) : RowObject → List Output
  | named fields => fields.map .column
  | whole => columns.map .column

/-- The outputs hold everything that a relation asks for: its named fields, all columns for a star,
and its relations with everything that they ask for. -/
def Returns (columns : String → List String) (outputs : List Output) : EmbeddedField → Prop
  | .mk relation fields children =>
    (∀ field ∈ fields, field ≠ "*" → .column field ∈ outputs) ∧
    ("*" ∈ fields → ∀ column ∈ columns relation, .column column ∈ outputs) ∧
    ∀ child ∈ children, ∃ nested, .relation child.relation nested ∈ outputs ∧
      Returns columns nested child

/-- The statement gives everything that was selected. -/
def Complete (columns : String → List String) (builder : QueryBuilder) (metadata : TableMetadata)
    (queryParams : QueryParams) (select : Select) : Prop :=
  (∀ field ∈ queryParams.fields, fieldColumn builder.table field ∈ select.columns) ∧
  ∀ embedded ∈ queryParams.embedded, embeddedColumn builder metadata embedded ∈ select.columns ∧
    Returns columns ((rowObject embedded.fields).outputs (columns embedded.relation)) embedded

/-- A relation of which nothing is left out: it has no children, and a star among its fields stands
alone, or next to the names of all columns. -/
def isReturned (columns : String → List String) : EmbeddedField → Bool
  | .mk relation fields children =>
    children.isEmpty && (!fields.contains "*" || fields.all (· = "*") ||
      (columns relation).all (fields.filter isValidIdentifier).contains)

variable {columns : String → List String} {fields : List String}

/-- A row is taken whole unless a field is a name. -/
theorem rowObject_eq (fields : List String) :
    rowObject fields = if fields.filter isValidIdentifier = [] then .whole
      else .named (fields.filter isValidIdentifier) := by
  unfold rowObject
  by_cases hnames : fields.filter isValidIdentifier = []
  · simp [hnames]
  · have hne : fields ≠ [] := fun h => hnames (by rw [h]; rfl)
    have hstar : fields ≠ ["*"] := fun h => hnames (by rw [h]; decide)
    rw [if_pos ⟨hne, hstar, hnames⟩, if_neg hnames]

/-- The rows of a sub-select hold no relations. -/
theorem relation_not_mem_outputs (object : RowObject) (columns : List String) (name : String)
    (nested : List Output) : .relation name nested ∉ object.outputs columns := by
  cases object <;> simp [RowObject.outputs]

/-- The fields of a relation, as far as its rows hold them. -/
theorem fields_returned_iff {columns : List String} (hfields : fields.all isField) :
    ((∀ field ∈ fields, field ≠ "*" → .column field ∈ (rowObject fields).outputs columns) ∧
      ("*" ∈ fields → ∀ column ∈ columns, .column column ∈ (rowObject fields).outputs columns)) ↔
    ("*" ∈ fields → (∀ field ∈ fields, field = "*") ∨
      ∀ column ∈ columns, column ∈ fields.filter isValidIdentifier) := by
  have hname : ∀ field ∈ fields, field ≠ "*" → field ∈ fields.filter isValidIdentifier := by
    intro field hmem hne
    have hfield := List.all_eq_true.mp hfields field hmem
    exact List.mem_filter.mpr ⟨hmem, by simpa [isField, hne] using hfield⟩
  rw [rowObject_eq]
  split
  · rename_i hnames
    have hstars : ∀ field ∈ fields, field = "*" := by
      intro field hmem
      by_contra hne
      exact List.not_mem_nil (hnames ▸ hname field hmem hne)
    constructor
    · exact fun _ _ => .inl hstars
    · intro _
      refine ⟨fun field hmem hne => absurd (hstars field hmem) hne, fun _ column hcolumn => ?_⟩
      exact List.mem_map_of_mem hcolumn
  · rename_i hnames
    have hnot : ¬∀ field ∈ fields, field = "*" := by
      intro hstars
      obtain ⟨name, hname⟩ := List.exists_mem_of_ne_nil _ hnames
      obtain ⟨hmem, hvalid⟩ := List.mem_filter.mp hname
      rw [hstars name hmem] at hvalid
      exact absurd hvalid (by decide)
    have hfirst : ∀ field ∈ fields, field ≠ "*" → Output.column field ∈
        (fields.filter isValidIdentifier).map .column :=
      fun field hmem hne => List.mem_map_of_mem (hname field hmem hne)
    simp only [RowObject.outputs, hnot, false_or]
    refine (and_iff_right hfirst).trans (imp_congr_right fun _ => ?_)
    simp

theorem returns_iff {relation : String} {children : List EmbeddedField}
    (hfields : fields.all isField) :
    Returns columns ((rowObject fields).outputs (columns relation))
      (.mk relation fields children) ↔
        isReturned columns (.mk relation fields children) := by
  have hchildren : (∀ child ∈ children, ∃ nested, Output.relation child.relation nested ∈
      (rowObject fields).outputs (columns relation) ∧ Returns columns nested child) ↔
      children = [] := by
    constructor
    · intro h
      rw [List.eq_nil_iff_forall_not_mem]
      intro child hchild
      obtain ⟨nested, hmem, -⟩ := h child hchild
      exact relation_not_mem_outputs _ _ _ _ hmem
    · rintro rfl
      simp
  rw [Returns, hchildren, ← and_assoc, fields_returned_iff hfields]
  simp [isReturned, and_comm, imp_iff_not_or, or_assoc]

/-- For every accepted `select` parameter and every table metadata, the statement gives everything
that is selected exactly when no embedded relation has children or a star next to names that
leave a column out. -/
theorem select_complete_iff (columns : String → List String) (builder : QueryBuilder)
    (metadata : TableMetadata) (raw : String) (queryParams : QueryParams) (select : Select)
    (hparsed : parseSelect raw = .ok (queryParams.fields, queryParams.embedded))
    (hselect : buildSelect builder queryParams metadata = .ok select) :
    Complete columns builder metadata queryParams select ↔
      queryParams.embedded.all (isReturned columns) := by
  obtain ⟨-, haccepted⟩ := parseSelectFrom_accepted hparsed
  obtain ⟨clauses, -, h⟩ := Result.bind_eq_ok.mp hselect
  cases h
  have hroot : ∀ field ∈ queryParams.fields,
      fieldColumn builder.table field ∈ selectColumns builder metadata queryParams := by
    intro field hmem
    refine List.mem_append_left _ (List.mem_map_of_mem ?_)
    rw [if_neg (List.ne_nil_of_mem hmem)]
    exact hmem
  rw [List.all_eq_true, Complete, and_iff_right hroot]
  refine forall₂_congr fun embedded hmem => ?_
  have hcolumn : embeddedColumn builder metadata embedded ∈
      selectColumns builder metadata queryParams :=
    List.mem_append_right _ (List.mem_map_of_mem hmem)
  rw [and_iff_right hcolumn]
  have hrelation := isAccepted_of_mem haccepted hmem
  obtain ⟨relation, fields, children⟩ := embedded
  rw [isAccepted, Bool.and_eq_true, Bool.and_eq_true] at hrelation
  exact returns_iff hrelation.1.2

/-- The posts with their comments. -/
def postsWith (children : List EmbeddedField) : QueryParams :=
  ⟨["id"], [.mk "comments" ["body"] children], [], [], 20, 0, false, ""⟩

theorem comments_complete : ∃ select,
    buildSelect ⟨"public", "posts"⟩ (postsWith []) ⟨"id", []⟩ = .ok select ∧
      Complete (fun _ => ["id", "body"]) ⟨"public", "posts"⟩ ⟨"id", []⟩ (postsWith []) select :=
  ⟨_, rfl, (select_complete_iff _ _ _ "id,comments(body)" (postsWith []) _ rfl rfl).mpr (by decide)⟩

/-- The authors of the comments are asked for and left out. -/
theorem authors_left_out :
    parseSelect "id,comments(body,author(name))" =
      .ok (["id"], [.mk "comments" ["body"] [.mk "author" ["name"] []]]) ∧
    ∀ select,
      buildSelect ⟨"public", "posts"⟩ (postsWith [.mk "author" ["name"] []]) ⟨"id", []⟩ =
        .ok select →
      ¬Complete (fun _ => ["id", "body"]) ⟨"public", "posts"⟩ ⟨"id", []⟩
        (postsWith [.mk "author" ["name"] []]) select := by
  refine ⟨rfl, ?_⟩
  rintro select - ⟨-, hembedded⟩
  have hreturned := (returns_iff (by decide)).mp (hembedded _ List.mem_cons_self).2
  exact absurd hreturned (by decide)

end Layr.Rest
