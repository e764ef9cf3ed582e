import Layr.Graphql.Compiler

/-!
# The text depends on the shape of the operands only

`erase` blanks the scalars of an operation that are bound as arguments: the operands of `where`
conditions, the values of inserted objects and of `_set`. Compiling the erased operation fails
with the same error or gives the same statement, so two operations with the same erasure have one
text. The operand of `_is_null` decides between `IS NULL` and `IS NOT NULL`, so it is kept.
-/

namespace Layr

open Go

/-! ## Erasure -/

namespace Go

mutual

/-- Every scalar becomes `nil`; slices and maps keep their shape and keys. -/
def Value.erase : Value → Value
  | .list items => .list (eraseItems items)
  | .obj fields => .obj (eraseFields fields)
  | _ => .null

def eraseItems : List Value → List Value
  | [] => []
  | item :: items => item.erase :: eraseItems items

def eraseFields : List (String × Value) → List (String × Value)
  | [] => []
  | (key, value) :: fields => (key, value.erase) :: eraseFields fields

end

@[simp]
theorem length_eraseItems (items : List Value) : (eraseItems items).length = items.length := by
  induction items with
  | nil => rfl
  | cons item items ih => simp [eraseItems, ih]

theorem eraseFields_eq_map (fields : List (String × Value)) :
    eraseFields fields = fields.map fun entry => (entry.1, entry.2.erase) := by
  induction fields with
  | nil => rfl
  | cons entry fields ih =>
    obtain ⟨key, value⟩ := entry
    rw [eraseFields, ih, List.map_cons]

namespace GoMap

variable {V W : Type}

theorem get_map (f : String → V → W) (key : String) (m : GoMap V) :
    get key (m.map fun entry => (entry.1, f entry.1 entry.2)) = (get key m).map (f key) := by
  induction m with
  | nil => rfl
  | cons entry m ih =>
    obtain ⟨k, v⟩ := entry
    simp only [List.map_cons, get]
    split_ifs with hk
    · rw [hk, Option.map_some]
    · exact ih

theorem entries_map (f : String → V → W) (m : GoMap V) :
    entries (m.map fun entry => (entry.1, f entry.1 entry.2)) =
      (entries m).map fun entry => (entry.1, f entry.1 entry.2) := by
  induction m with
  | nil => rfl
  | cons entry m ih =>
    obtain ⟨k, v⟩ := entry
    simp only [List.map_cons, entries, ih, List.filter_map]
    congr 1

end GoMap

theorem entries_eraseFields (fields : GoMap Value) :
    GoMap.entries (eraseFields fields) =
      (GoMap.entries fields).map fun entry => (entry.1, entry.2.erase) := by
  rw [eraseFields_eq_map]
  exact GoMap.entries_map (fun _ value => value.erase) fields

end Go

namespace Graphql

/-- The operand of a filter operator, blanked unless the operator is `_is_null`. -/
def eraseOperand (filterOp : String) (operand : Value) : Value :=
  if filterOp = "_is_null" then operand else operand.erase

/-- The condition on one column: the operands of its operators, or a value it equals. -/
def eraseCondition : Value → Value
  | .obj conditionMap =>
    .obj (conditionMap.map fun entry => (entry.1, eraseOperand entry.1 entry.2))
  | value => value.erase

/-- The operands of a `where` argument. -/
def eraseWhere : Value → Value
  | .obj whereMap => .obj (whereMap.map fun entry => (entry.1, eraseCondition entry.2))
  | value => value

/-- The arguments whose scalars are bound as SQL arguments. -/
def eraseArgument (name : String) (value : Value) : Value :=
  if name = "where" then eraseWhere value
  else if name = "objects" ∨ name = "_set" then value.erase
  else value

def eraseArguments (arguments : GoMap Value) : GoMap Value :=
  arguments.map fun entry => (entry.1, eraseArgument entry.1 entry.2)

mutual

def FieldNode.erase : FieldNode → FieldNode
  | .mk name aliasName arguments selectionSet =>
    .mk name aliasName (eraseArguments arguments) (eraseSelections selectionSet)

def eraseSelections : List FieldNode → List FieldNode
  | [] => []
  | field :: fields => field.erase :: eraseSelections fields

end

/-- The operation with its bound scalars blanked. -/
def OperationNode.erase (operationNode : OperationNode) : OperationNode :=
  { operationNode with selectionSet := eraseSelections operationNode.selectionSet }

namespace FieldNode

@[simp]
theorem name_erase (field : FieldNode) : field.erase.name = field.name := by
  cases field
  simp [erase, name]

@[simp]
theorem aliasName_erase (field : FieldNode) : field.erase.aliasName = field.aliasName := by
  cases field
  simp [erase, aliasName]

@[simp]
theorem responseKey_erase (field : FieldNode) : field.erase.responseKey = field.responseKey := by
  simp [responseKey]

@[simp]
theorem selectionSet_erase (field : FieldNode) :
    field.erase.selectionSet = eraseSelections field.selectionSet := by
  cases field
  simp [erase, selectionSet]

@[simp]
theorem arguments_erase (field : FieldNode) :
    field.erase.arguments = eraseArguments field.arguments := by
  cases field
  simp [erase, arguments]

end FieldNode

@[simp]
theorem isEmpty_eraseSelections (fields : List FieldNode) :
    (eraseSelections fields).isEmpty = fields.isEmpty := by
  cases fields <;> rfl

theorem eraseSelections_eq_map (fields : List FieldNode) :
    eraseSelections fields = fields.map FieldNode.erase := by
  induction fields with
  | nil => rfl
  | cons field fields ih => rw [eraseSelections, ih, List.map_cons]

theorem get_eraseArguments (name : String) (arguments : GoMap Value) :
    GoMap.get name (eraseArguments arguments) =
      (GoMap.get name arguments).map (eraseArgument name) :=
  GoMap.get_map eraseArgument name arguments

theorem getD_eraseArguments (name : String) (arguments : GoMap Value) :
    (GoMap.get name (eraseArguments arguments)).getD .null =
      eraseArgument name ((GoMap.get name arguments).getD .null) := by
  rw [get_eraseArguments]
  cases GoMap.get name arguments with
  | none =>
    unfold eraseArgument
    split_ifs <;> rfl
  | some value => rfl

/-- Erasing a field erases each argument by its name. -/
theorem argument_erase (field : FieldNode) (name : String) :
    field.erase.argument name = eraseArgument name (field.argument name) := by
  rw [FieldNode.argument, FieldNode.arguments_erase, getD_eraseArguments, FieldNode.argument]

/-- An argument that is not bound keeps its value. -/
theorem get_eraseArguments_of_ne {name : String} (hwhere : name ≠ "where")
    (hobjects : name ≠ "objects") (hset : name ≠ "_set") (arguments : GoMap Value) :
    GoMap.get name (eraseArguments arguments) = GoMap.get name arguments := by
  have hid : eraseArgument name = id := by
    funext value
    simp [eraseArgument, hwhere, hobjects, hset]
  rw [get_eraseArguments, hid, Option.map_id, id]

theorem returningPairs_eraseSelections (selectionSet : List FieldNode) :
    Compiler.returningPairs (eraseSelections selectionSet) =
      Compiler.returningPairs selectionSet := by
  rw [eraseSelections_eq_map, Compiler.returningPairs, List.filter_map, List.map_map]
  simp [Compiler.returningPairs, Function.comp_def]

theorem compileLimit_eraseArguments (arguments : GoMap Value) :
    Compiler.compileLimit (eraseArguments arguments) = Compiler.compileLimit arguments := by
  rw [Compiler.compileLimit, get_eraseArguments_of_ne (by decide) (by decide) (by decide),
    Compiler.compileLimit]

theorem compileOffset_eraseArguments (arguments : GoMap Value) :
    Compiler.compileOffset (eraseArguments arguments) = Compiler.compileOffset arguments := by
  rw [Compiler.compileOffset, get_eraseArguments_of_ne (by decide) (by decide) (by decide),
    Compiler.compileOffset]

/-! ## Same shape -/

/-- Two compilations fail alike, or agree in everything but the arguments. -/
def SameShape {α : Type} :
    Except CompileError (Compiled α) → Except CompileError (Compiled α) → Prop
  | .ok first, .ok second => first.sql = second.sql ∧ first.next = second.next
  | .error first, .error second => first = second
  | _, _ => False

namespace SameShape

variable {α β : Type}

theorem refl (x : Except CompileError (Compiled α)) : SameShape x x := by
  cases x with
  | ok c => exact ⟨rfl, rfl⟩
  | error e => exact rfl

theorem bind {x y : Except CompileError (Compiled α)}
    {f g : Compiled α → Except CompileError (Compiled β)} (h : SameShape x y)
    (hfg : ∀ sql args args' next, SameShape (f ⟨sql, args, next⟩) (g ⟨sql, args', next⟩)) :
    SameShape (x >>= f) (y >>= g) := by
  cases x with
  | ok first =>
    cases y with
    | ok second =>
      obtain ⟨sql, args, next⟩ := first
      obtain ⟨rfl, rfl⟩ := h
      exact hfg _ _ _ _
    | error e => exact h.elim
  | error e =>
    cases y with
    | ok second => exact h.elim
    | error e' => exact h

/-- A step that both compilations take alike. -/
theorem bind_same {γ : Type} (x : Except CompileError γ)
    {f g : γ → Except CompileError (Compiled β)} (hfg : ∀ c, SameShape (f c) (g c)) :
    SameShape (x >>= f) (x >>= g) := by
  cases x with
  | ok c => exact hfg c
  | error e => exact rfl

/-- A check that both compilations make alike. -/
theorem ite {p : Prop} [Decidable p] {x x' y y' : Except CompileError (Compiled α)}
    (hthen : SameShape x y) (helse : SameShape x' y') :
    SameShape (if p then x else x') (if p then y else y') := by
  split
  · exact hthen
  · exact helse

end SameShape

namespace Compiler

variable (compiler : Compiler)

/-! ## Conditions -/

/-- The operand of `_is_null` reaches the text, so it is not erased. -/
theorem sameShape_compileFilter (tableAlias columnName filterOp : String) (conditionValue : Value)
    (argIndex : ℕ) :
    SameShape
      (.ok (compileFilter tableAlias columnName filterOp (eraseOperand filterOp conditionValue)
        argIndex))
      (.ok (compileFilter tableAlias columnName filterOp conditionValue argIndex)) := by
  by_cases hnull : filterOp = "_is_null"
  · rw [eraseOperand, if_pos hnull]
    exact .refl _
  · rw [eraseOperand, if_neg hnull]
    cases hop : compareOp filterOp with
    | some => simp only [compileFilter, hop]; exact ⟨rfl, rfl⟩
    | none =>
      by_cases hin : filterOp = "_in"
      · simp only [compileFilter, hop, if_pos hin]
        cases conditionValue with
        | list inArray =>
          cases inArray with
          | nil => exact ⟨rfl, rfl⟩
          | cons =>
            -- only the number of elements reaches the text
            simp only [Value.erase, eraseItems, List.length_cons, length_eraseItems]
            exact ⟨rfl, rfl⟩
        | _ => exact ⟨rfl, rfl⟩
      · simp only [compileFilter, hop, if_neg hin, if_neg hnull]
        exact ⟨rfl, rfl⟩

theorem sameShape_compileFilters (tableAlias columnName : String)
    (entries : List (String × Value)) (argIndex : ℕ) :
    SameShape
      (.ok (compileFilters tableAlias columnName
        (entries.map fun entry => (entry.1, eraseOperand entry.1 entry.2)) argIndex))
      (.ok (compileFilters tableAlias columnName entries argIndex)) := by
  induction entries generalizing argIndex with
  | nil => exact ⟨rfl, rfl⟩
  | cons entry entries ih =>
    obtain ⟨filterOp, conditionValue⟩ := entry
    obtain ⟨hsql, hnext⟩ :=
      sameShape_compileFilter tableAlias columnName filterOp conditionValue argIndex
    simp only [List.map_cons, compileFilters, SameShape, hsql, hnext]
    obtain ⟨hsql', hnext'⟩ :=
      ih (compileFilter tableAlias columnName filterOp conditionValue argIndex).next
    exact ⟨by rw [hsql'], hnext'⟩

theorem sameShape_compileColumn (tableAlias columnName : String) (condition : Value)
    (argIndex : ℕ) :
    SameShape (.ok (compileColumn tableAlias columnName (eraseCondition condition) argIndex))
      (.ok (compileColumn tableAlias columnName condition argIndex)) := by
  cases condition with
  | obj =>
    simp only [eraseCondition, compileColumn, GoMap.entries_map]
    exact sameShape_compileFilters _ _ _ _
  | _ => exact ⟨rfl, rfl⟩

theorem sameShape_compileColumns (tableAlias : String) (entries : List (String × Value))
    (argIndex : ℕ) :
    SameShape
      (compileColumns tableAlias (entries.map fun entry => (entry.1, eraseCondition entry.2))
        argIndex)
      (compileColumns tableAlias entries argIndex) := by
  induction entries generalizing argIndex with
  | nil => exact ⟨rfl, rfl⟩
  | cons entry entries ih =>
    obtain ⟨columnName, condition⟩ := entry
    obtain ⟨hsql, hnext⟩ := sameShape_compileColumn tableAlias columnName condition argIndex
    simp only [List.map_cons, compileColumns, hsql, hnext]
    exact .ite (.bind (ih _) fun _ _ _ _ => ⟨rfl, rfl⟩) (.refl _)

/-- The columns of a condition are visited in the order of their names. -/
theorem sameShape_compileWhere (tableAlias : String) (whereArg : Value) (startIndex : ℕ) :
    SameShape (compileWhere tableAlias (eraseWhere whereArg) startIndex)
      (compileWhere tableAlias whereArg startIndex) := by
  cases whereArg with
  | obj =>
    simp only [eraseWhere, compileWhere]
    rw [GoMap.entries_map fun _ condition => eraseCondition condition]
    exact sameShape_compileColumns _ _ _
  | _ => exact .refl _

/-! ## Queries -/

mutual

/-- The limit, the offset and the order are printed, so they are not erased. -/
theorem sameShape_compileNestedRelation (schema parentTable parentAlias : String)
    (startIndex depth : ℕ) : ∀ field : FieldNode,
    SameShape
      (compiler.compileNestedRelation schema parentTable parentAlias startIndex depth field.erase)
      (compiler.compileNestedRelation schema parentTable parentAlias startIndex depth field)
  | .mk relTable aliasName arguments selectionSet => by
    rw [FieldNode.erase, compileNestedRelation, compileNestedRelation, getD_eraseArguments,
      get_eraseArguments_of_ne (by decide) (by decide) (by decide),
      compileLimit_eraseArguments, compileOffset_eraseArguments]
    refine .ite (.refl _) (.bind (sameShape_compileSelections _ _ _ _ _ selectionSet) ?_)
    intro pairs args args' next
    exact .bind (sameShape_compileWhere _ _ _) fun _ _ _ _ => .bind_same _ fun orderBy =>
      .bind_same _ fun limit => .bind_same _ fun offset => ⟨rfl, rfl⟩

theorem sameShape_compileSelections (schema table tableAlias : String) (argIndex depth : ℕ) :
    ∀ subFields : List FieldNode,
    SameShape
      (compiler.compileSelections schema table tableAlias argIndex depth
        (eraseSelections subFields))
      (compiler.compileSelections schema table tableAlias argIndex depth subFields)
  | [] => ⟨rfl, rfl⟩
  | subField :: subFields => by
    simp only [eraseSelections, compileSelections, FieldNode.responseKey_erase,
      FieldNode.selectionSet_erase, FieldNode.name_erase, isEmpty_eraseSelections]
    have hrest := fun argIndex =>
      sameShape_compileSelections schema table tableAlias argIndex depth subFields
    refine .ite (.refl _) (.ite (.ite (.refl _) ?_) ?_)
    · exact .bind (hrest _) fun _ _ _ _ => ⟨rfl, rfl⟩
    · refine .bind (sameShape_compileNestedRelation _ _ _ _ _ subField) fun _ _ _ _ => ?_
      exact .bind (hrest _) fun _ _ _ _ => ⟨rfl, rfl⟩

end

theorem sameShape_compileRootQuery (fieldNode : FieldNode) (startIndex : ℕ) :
    SameShape (compiler.compileRootQuery fieldNode.erase startIndex)
      (compiler.compileRootQuery fieldNode startIndex) := by
  unfold compileRootQuery
  simp only [FieldNode.name_erase, FieldNode.aliasName_erase, FieldNode.selectionSet_erase,
    FieldNode.arguments_erase, argument_erase, compileLimit_eraseArguments,
    compileOffset_eraseArguments]
  refine .bind_same _ fun _ => .ite (.refl _) (.bind (sameShape_compileSelections _ _ _ _ _ _ _) ?_)
  intro pairs args args' next
  exact .bind (sameShape_compileWhere _ _ _) fun _ _ _ _ => .bind_same _ fun orderBy =>
    .bind_same _ fun limit => .bind_same _ fun offset => ⟨rfl, rfl⟩

theorem sameShape_compileRootQueries (rootFields : List FieldNode) (argIndex : ℕ) :
    SameShape (compiler.compileRootQueries (rootFields.map FieldNode.erase) argIndex)
      (compiler.compileRootQueries rootFields argIndex) := by
  induction rootFields generalizing argIndex with
  | nil => exact ⟨rfl, rfl⟩
  | cons rootField rootFields ih =>
    simp only [List.map_cons, compileRootQueries, FieldNode.responseKey_erase]
    refine .bind (sameShape_compileRootQuery compiler rootField argIndex) fun _ _ _ _ => ?_
    exact .bind (ih _) fun _ _ _ _ => ⟨rfl, rfl⟩

/-! ## Mutations -/

theorem sameShape_insertRows (columns : List String) (objects : List Value) (argIndex : ℕ) :
    SameShape (insertRows columns (eraseItems objects) argIndex)
      (insertRows columns objects argIndex) := by
  induction objects generalizing argIndex with
  | nil => exact ⟨rfl, rfl⟩
  | cons object objects ih =>
    cases object with
    | obj =>
      simp only [eraseItems, Value.erase, insertRows]
      exact .bind (ih _) fun _ _ _ _ => ⟨rfl, rfl⟩
    | _ => exact rfl

/-- The columns are those of the keys, which stay. -/
theorem insertColumns_eraseFields (recordMap : GoMap Value) :
    insertColumns (eraseFields recordMap) = insertColumns recordMap := by
  have hkeys : GoMap.keys (eraseFields recordMap) = GoMap.keys recordMap := by
    rw [GoMap.keys, entries_eraseFields, List.map_map]
    rfl
  rw [insertColumns, insertColumns, hkeys]

theorem sameShape_compileInsert (cteName name : String) (mutationField : FieldNode)
    (argIndex : ℕ) :
    SameShape (compiler.compileInsert cteName name mutationField.erase argIndex)
      (compiler.compileInsert cteName name mutationField argIndex) := by
  unfold compileInsert
  rw [argument_erase]
  refine .bind_same _ fun _ => ?_
  cases mutationField.argument "objects" with
  | list objects =>
    cases objects with
    | nil => exact rfl
    | cons first objects =>
      cases first with
      | obj recordMap =>
        change SameShape
          (insertColumns (eraseFields recordMap) >>= fun columns =>
            insertRows columns (eraseItems (.obj recordMap :: objects)) argIndex >>= fun rows => _)
          (insertColumns recordMap >>= fun columns =>
            insertRows columns (.obj recordMap :: objects) argIndex >>= fun rows => _)
        rw [insertColumns_eraseFields]
        exact .bind_same _ fun columns => .bind (sameShape_insertRows _ _ _)
          fun _ _ _ _ => ⟨rfl, rfl⟩
      | _ => exact rfl
  | _ => exact rfl

theorem sameShape_compileSets (entries : List (String × Value)) (argIndex : ℕ) :
    SameShape (compileSets (entries.map fun entry => (entry.1, entry.2.erase)) argIndex)
      (compileSets entries argIndex) := by
  induction entries generalizing argIndex with
  | nil => exact ⟨rfl, rfl⟩
  | cons entry entries ih =>
    obtain ⟨columnName, columnValue⟩ := entry
    simp only [List.map_cons, compileSets]
    exact .ite (.bind (ih _) fun _ _ _ _ => ⟨rfl, rfl⟩) (.refl _)

theorem sameShape_compileRequiredWhere (mutation table : String) (mutationField : FieldNode)
    (argIndex : ℕ) :
    SameShape (compileRequiredWhere mutation table mutationField.erase argIndex)
      (compileRequiredWhere mutation table mutationField argIndex) := by
  have hconditions : ∀ whereArg : Value,
      SameShape
        (compileWhere table (eraseWhere whereArg) argIndex >>= fun conditions =>
          if conditions.sql.isEmpty then .error (.whereRequired mutation) else .ok conditions)
        (compileWhere table whereArg argIndex >>= fun conditions =>
          if conditions.sql.isEmpty then .error (.whereRequired mutation) else .ok conditions) := by
    intro whereArg
    exact .bind (sameShape_compileWhere _ _ _) fun _ _ _ _ => .ite (.refl _) ⟨rfl, rfl⟩
  unfold compileRequiredWhere
  rw [argument_erase]
  have hwhere := hconditions (mutationField.argument "where")
  generalize mutationField.argument "where" = whereArg at hwhere ⊢
  cases whereArg with
  | null => exact rfl
  | _ => exact hwhere

theorem sameShape_compileUpdate (cteName name : String) (mutationField : FieldNode)
    (argIndex : ℕ) :
    SameShape (compiler.compileUpdate cteName name mutationField.erase argIndex)
      (compiler.compileUpdate cteName name mutationField argIndex) := by
  unfold compileUpdate
  rw [argument_erase]
  refine .bind_same _ fun _ => ?_
  cases mutationField.argument "_set" with
  | obj updateMap =>
    cases updateMap with
    | nil => exact rfl
    | cons entry updateMap =>
      change SameShape
        (compileSets (GoMap.entries (eraseFields (entry :: updateMap))) argIndex >>= fun sets =>
          compileRequiredWhere "update" _ mutationField.erase sets.next >>= fun conditions => _)
        (compileSets (GoMap.entries (entry :: updateMap)) argIndex >>= fun sets =>
          compileRequiredWhere "update" _ mutationField sets.next >>= fun conditions => _)
      rw [entries_eraseFields]
      refine .bind (sameShape_compileSets _ _) fun _ _ _ _ => ?_
      exact .bind (sameShape_compileRequiredWhere _ _ _ _) fun _ _ _ _ => ⟨rfl, rfl⟩
  | _ => exact rfl

theorem sameShape_compileDelete (cteName name : String) (mutationField : FieldNode)
    (argIndex : ℕ) :
    SameShape (compiler.compileDelete cteName name mutationField.erase argIndex)
      (compiler.compileDelete cteName name mutationField argIndex) := by
  unfold compileDelete
  exact .bind_same _ fun _ => .bind (sameShape_compileRequiredWhere _ _ _ _)
    fun _ _ _ _ => ⟨rfl, rfl⟩

/-- Each mutation counts on from the placeholders of those before it. -/
theorem sameShape_compileMutations (fields : List FieldNode) (mutationIndex argIndex : ℕ) :
    SameShape (compiler.compileMutations (fields.map FieldNode.erase) mutationIndex argIndex)
      (compiler.compileMutations fields mutationIndex argIndex) := by
  have hmutation : ∀ (cteName : String) (mutationField : FieldNode) (argIndex : ℕ),
      SameShape (compiler.compileMutation cteName mutationField.erase argIndex)
        (compiler.compileMutation cteName mutationField argIndex) := by
    intro cteName mutationField argIndex
    simp only [compileMutation, FieldNode.name_erase]
    exact .ite (sameShape_compileInsert _ _ _ _ _) <| .ite (sameShape_compileUpdate _ _ _ _ _) <|
      .ite (sameShape_compileDelete _ _ _ _ _) (.refl _)
  induction fields generalizing mutationIndex argIndex with
  | nil => exact ⟨rfl, rfl⟩
  | cons mutationField fields ih =>
    simp only [List.map_cons, compileMutations, FieldNode.name_erase,
      FieldNode.selectionSet_erase, returningPairs_eraseSelections]
    refine .bind (hmutation _ _ _) fun _ _ _ _ => ?_
    exact .bind (ih _ _) fun _ _ _ _ => ⟨rfl, rfl⟩

/-- Erasing the bound scalars of an operation changes neither the text it compiles to nor the
error it fails with. -/
theorem compile_erase (operationNode : OperationNode) :
    (compiler.compile operationNode.erase).map SQLQuery.statement =
      (compiler.compile operationNode).map SQLQuery.statement := by
  have hmap : ∀ {α : Type} {x y : Except CompileError (Compiled α)} (f : α → Statement),
      SameShape x y →
      (x >>= fun parts => .ok (⟨f parts.sql, parts.args⟩ : SQLQuery)).map SQLQuery.statement =
        (y >>= fun parts => .ok ⟨f parts.sql, parts.args⟩).map SQLQuery.statement := by
    intro α x y f h
    cases x with
    | ok first =>
      cases y with
      | ok second => exact congrArg (fun sql => Except.ok (f sql)) h.1
      | error e => exact h.elim
    | error e =>
      cases y with
      | ok second => exact h.elim
      | error e' => exact congrArg Except.error h
  unfold compile OperationNode.erase
  simp only [isEmpty_eraseSelections]
  split
  · rfl
  · rw [eraseSelections_eq_map]
    cases operationNode.type with
    | query => exact hmap Statement.query (sameShape_compileRootQueries compiler _ 1)
    | mutation =>
      exact hmap (fun parts => Statement.mutation parts.1 parts.2)
        (sameShape_compileMutations compiler _ 0 1)

end Compiler
end Graphql
end Layr
