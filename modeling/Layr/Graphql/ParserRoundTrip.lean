import Layr.Graphql.ParserValues

/-!
# Parsing a printed operation gives the operation back

Arguments, selection sets and the document, over the values of `ParserValues`. Between two
fields the parser skips blanks, so what follows a field is described by where the skipping
leads (`Follows`).
-/

namespace Layr.Graphql

open Go

namespace Parser

variable {vars : GoMap Value}

variable {args : GoMap Value} {consumed rest rest' behind : List Char} {fields : List FieldNode}
  {name : String} {fuel : ℕ}

/-! ## Arguments -/

theorem readsEntries_parseArgumentList : ReadsEntries vars (parseArgumentList vars) := by
  intro fuel acc args key value consumed runes rest rest' hkey hskip hvalue hargs
  obtain ⟨consumed', hread⟩ := readIdent_name consumed hkey
    (ends_cons runes (c := ':') (by decide))
  rw [parseArgumentList, if_neg (not_closed_name _ _ hkey (by decide)), skip_name hkey, hread]
  simp only [if_neg (isName_ne_empty hkey), skip_of_isStop (c := ':') (by decide)]
  rw [if_neg (by simp [peekChar]), advance, hskip]
  exact (hvalue (':' :: consumed')).bind hargs

/-- A printed argument list is read back. -/
theorem parseArguments_printArguments (h : entriesPrintable args) (hne : args ≠ [])
    (hfuel : (printArguments args).length ≤ fuel) :
    Reads (parseArguments vars fuel ⟨consumed, printArguments args ++ rest⟩) args rest := by
  obtain ⟨⟨key, value⟩, entries, rfl⟩ : ∃ entry entries, args = entry :: entries :=
    List.exists_cons_of_ne_nil hne
  have htext : printArguments ((key, value) :: entries) ++ rest =
      '(' :: (printEntries ((key, value) :: entries) ++ ')' :: rest) := by
    simp [printArguments]
  have hlength : (printArguments ((key, value) :: entries)).length =
      (printEntries ((key, value) :: entries)).length + 2 := by
    simp [printArguments]
  obtain ⟨consumed', hskip⟩ :
      ∃ consumed', skipWhitespaceAndComments
        ⟨'(' :: consumed, printEntries ((key, value) :: entries) ++ ')' :: rest⟩ =
          ⟨consumed', printEntries ((key, value) :: entries) ++ ')' :: rest⟩ := by
    simp only [entriesPrintable, Bool.and_eq_true] at h
    refine ⟨'(' :: consumed, ?_⟩
    rw [printEntries, List.append_assoc, List.append_assoc]
    exact skip_name h.1.1.1
  rw [htext, parseArguments, if_neg (by simp [peekChar])]
  show Reads (parseArgumentList vars fuel [] (skipWhitespaceAndComments
    ⟨'(' :: consumed, printEntries ((key, value) :: entries) ++ ')' :: rest⟩)) _ _
  rw [hskip]
  exact readsEntries_parseArgumentList.reads (nodup_of_entriesPrintable h) (readsBack_of_entries h)
    (by decide) (fun fuel consumed => ⟨')' :: consumed, by
      simp [parseArgumentList, isEOF, peekChar, advance]⟩) (by omega)

/-! ## Selection sets -/

/-- The text that follows a field leads, behind blanks, to the next field or the closing brace:
to a rune that continues no field. -/
structure Follows (rest rest' : List Char) : Prop where
  ends : Ends rest
  skips : Skips rest rest'
  again : Skips rest' rest'
  head : ∀ consumed, peekChar ⟨consumed, rest'⟩ ≠ ':' ∧ peekChar ⟨consumed, rest'⟩ ≠ '(' ∧
    peekChar ⟨consumed, rest'⟩ ≠ '{'

/-- The name a printed field starts with. -/
theorem printField_cases {field : FieldNode} (h : field.isPrintable) :
    ∃ first, isName first ∧ ∃ runes, printField field = first.toList ++ runes := by
  obtain ⟨name, aliasName, arguments, selectionSet⟩ := field
  simp only [FieldNode.isPrintable, Bool.and_eq_true, Bool.or_eq_true, decide_eq_true_eq] at h
  obtain ⟨⟨⟨hname, halias⟩, -⟩, -⟩ := h
  unfold printField printFieldName
  rcases halias with halias | halias
  · rw [if_pos halias]
    exact ⟨name, hname, printArguments arguments ++ printSelectionSet selectionSet, by simp⟩
  · rw [if_neg (isName_ne_empty halias)]
    exact ⟨aliasName, halias,
      ':' :: name.toList ++ printArguments arguments ++ printSelectionSet selectionSet, by simp⟩

/-- The fields of a selection set. -/
def fieldListing : Listing FieldNode where
  part := printField
  parts := printFields
  more := printMoreFields
  blank := ' '
  parts_nil := rfl
  parts_cons _ _ := rfl
  more_nil := by rw [printMoreFields]
  more_cons _ _ := by rw [printFields, printMoreFields]; rfl
  isBlank := by decide
  ends := by decide

section

variable (h : ∀ field ∈ fields, field.isPrintable)

include h

theorem stops_fields : fieldListing.Stops fields := by
  intro field hmem
  obtain ⟨name, hname, runes, hfield⟩ := printField_cases (h field hmem)
  obtain ⟨first, more, hlist, hstart, -⟩ := isName_cases hname
  exact ⟨first, more ++ runes, hfield.trans (congrArg (· ++ runes) hlist),
    isStop_of_isNameStart hstart⟩

/-- What follows a field of a selection set. -/
theorem follows_printMoreFields (rest : List Char) :
    Follows (printMoreFields fields ++ '}' :: rest) (printFields fields ++ '}' :: rest) := by
  refine ⟨fieldListing.ends_more fields (by decide) rest,
    fieldListing.skips_more (stops_fields h) (by decide) rest,
    fieldListing.skips_parts (stops_fields h) (by decide) rest, fun consumed => ?_⟩
  cases fields with
  | nil => simp [peekChar, printFields]
  | cons field fields =>
    obtain ⟨first, hfirst, runes, hfield⟩ := printField_cases (h field List.mem_cons_self)
    rw [printFields, hfield, List.append_assoc, List.append_assoc]
    exact ⟨peekChar_name _ _ hfirst (by decide), peekChar_name _ _ hfirst (by decide),
      peekChar_name _ _ hfirst (by decide)⟩

end

/-- What follows the arguments of a field: its selection set or what follows the field. -/
theorem follows_selectionSet (selectionSet : List FieldNode) (h : Follows rest rest') :
    ∃ behind, Skips (printSelectionSet selectionSet ++ rest) behind ∧
      Ends (printSelectionSet selectionSet ++ rest) ∧
      (∀ consumed, peekChar ⟨consumed, behind⟩ ≠ ':' ∧ peekChar ⟨consumed, behind⟩ ≠ '(') ∧
      behind = if selectionSet = [] then rest' else printSelectionSet selectionSet ++ rest := by
  cases selectionSet with
  | nil =>
    exact ⟨rest', h.skips, h.ends,
      fun consumed => ⟨(h.head consumed).1, (h.head consumed).2.1⟩, rfl⟩
  | cons =>
    rw [printSelectionSet]
    exact ⟨_, skips_of_isStop (by decide) _, ends_cons _ (by decide),
      fun consumed => ⟨by simp [peekChar], by simp [peekChar]⟩, rfl⟩

/-- What follows the name of a field: its arguments or what follows those. -/
theorem follows_arguments (args : GoMap Value) (hskips : Skips rest behind) (hends : Ends rest)
    (hcolon : ∀ consumed, peekChar ⟨consumed, behind⟩ ≠ ':') :
    Skips (printArguments args ++ rest)
      (if args = [] then behind else printArguments args ++ rest) ∧
      Ends (printArguments args ++ rest) ∧
      ∀ consumed,
        peekChar ⟨consumed, if args = [] then behind else printArguments args ++ rest⟩ ≠ ':' := by
  cases args with
  | nil => exact ⟨hskips, hends, hcolon⟩
  | cons =>
    exact ⟨skips_of_isStop (by decide) _, ends_cons _ (by decide),
      fun consumed => by simp [peekChar, printArguments]⟩

theorem readFieldName_printFieldName {aliasName : String} (consumed : List Char)
    (hname : isName name) (halias : aliasName = "" ∨ isName aliasName)
    (hends : Ends rest) (hskips : Skips rest behind)
    (hcolon : ∀ consumed, peekChar ⟨consumed, behind⟩ ≠ ':') :
    ∃ consumed', readFieldName ⟨consumed, printFieldName aliasName name ++ rest⟩ =
      .ok (aliasName, name, ⟨consumed', behind⟩) := by
  unfold readFieldName printFieldName
  rcases halias with rfl | halias
  · obtain ⟨consumed₁, hread⟩ := readIdent_name consumed hname hends
    obtain ⟨consumed₂, hskip⟩ := hskips consumed₁
    refine ⟨consumed₂, ?_⟩
    rw [if_pos rfl, skip_name hname, hread]
    simp only [isName_ne_empty hname, hskip, hcolon consumed₂, if_false]
  · -- the alias ends at the colon, and the name is read behind it
    obtain ⟨consumed₁, hread⟩ := readIdent_name consumed halias
      (ends_cons (c := ':') (name.toList ++ rest) (by decide))
    obtain ⟨consumed₂, hread'⟩ := readIdent_name (':' :: consumed₁) hname hends
    obtain ⟨consumed₃, hskip⟩ := hskips consumed₂
    refine ⟨consumed₃, ?_⟩
    have hstop : skipWhitespaceAndComments ⟨consumed₁, ':' :: (name.toList ++ rest)⟩ =
        ⟨consumed₁, ':' :: (name.toList ++ rest)⟩ := skip_of_isStop (by decide)
    rw [if_neg (isName_ne_empty halias), List.append_assoc, List.cons_append, skip_name halias,
      hread]
    simp only [isName_ne_empty halias, hstop, peekChar, List.headD_cons, advance, if_true, if_false,
      skip_name hname, hread', isName_ne_empty hname, hskip]

theorem readFieldArguments_printArguments (h : entriesPrintable args)
    (hfuel : (printArguments args).length ≤ fuel) (hskips : Skips rest behind)
    (hparen : ∀ consumed, peekChar ⟨consumed, behind⟩ ≠ '(') :
    Reads (readFieldArguments vars fuel
      ⟨consumed, if args = [] then behind else printArguments args ++ rest⟩) args behind := by
  by_cases hargs : args = []
  · subst hargs
    exact ⟨consumed, by rw [if_pos rfl, readFieldArguments, if_neg (hparen consumed)]⟩
  · rw [if_neg hargs, readFieldArguments]
    have hopen : peekChar ⟨consumed, printArguments args ++ rest⟩ = '(' := by
      cases args with
      | nil => exact absurd rfl hargs
      | cons => rfl
    rw [if_pos hopen]
    refine (parseArguments_printArguments h hargs hfuel).bind fun consumed' => ?_
    obtain ⟨consumed'', hskip⟩ := hskips consumed'
    exact ⟨consumed'', by simp only [hskip]⟩

theorem printSelectionSet_eq {selectionSet : List FieldNode} (h : selectionSet ≠ []) :
    printSelectionSet selectionSet = '{' :: (printFields selectionSet ++ ['}']) := by
  cases selectionSet with
  | nil => exact absurd rfl h
  | cons => simp [printSelectionSet, printFields]

/-- One round of the loop over the fields of a selection set. -/
theorem parseFields_field {aliasName : String} {selectionSet acc : List FieldNode}
    {rest'' : List Char}
    (hfield : (FieldNode.mk name aliasName args selectionSet).isPrintable)
    (hfuel : (printArguments args).length ≤ fuel) (hrest : Follows rest rest')
    (hchildren : selectionSet ≠ [] → ∀ consumed, Reads
      (parseSelectionSet vars fuel ⟨consumed, printSelectionSet selectionSet ++ rest⟩)
      selectionSet rest')
    (hmore : ∀ consumed, Reads (parseFields vars fuel
      (acc ++ [.mk name aliasName args selectionSet]) ⟨consumed, rest'⟩) fields rest'') :
    Reads (parseFields vars (fuel + 1) acc
      ⟨consumed, printField (.mk name aliasName args selectionSet) ++ rest⟩) fields rest'' := by
  obtain ⟨first, hfirst, runes, htext⟩ := printField_cases hfield
  have hopen : ¬(isEOF ⟨consumed, printField (.mk name aliasName args selectionSet) ++ rest⟩ ||
      decide (peekChar ⟨consumed, printField (.mk name aliasName args selectionSet) ++ rest⟩ =
        '}')) := by
    rw [htext, List.append_assoc]
    exact not_closed_name _ _ hfirst (by decide)
  simp only [FieldNode.isPrintable, Bool.and_eq_true, Bool.or_eq_true, decide_eq_true_eq] at hfield
  obtain ⟨⟨⟨hname, halias⟩, hargs⟩, -⟩ := hfield
  obtain ⟨behind, hskips, hends, hpeek, hbehind⟩ := follows_selectionSet selectionSet hrest
  obtain ⟨hskipsName, hendsName, hcolon⟩ :=
    follows_arguments args hskips hends fun consumed => (hpeek consumed).1
  obtain ⟨consumed₁, hreadName⟩ := readFieldName_printFieldName consumed hname halias hendsName
    hskipsName hcolon
  rw [parseFields, if_neg hopen, printField, List.append_assoc,
    List.append_assoc, hreadName]
  refine (readFieldArguments_printArguments hargs hfuel hskips
    fun consumed => (hpeek consumed).2).bind fun consumed₂ => ?_
  -- a field without selections is printed without braces
  by_cases hempty : selectionSet = []
  · rw [if_pos hempty] at hbehind
    simp only [hbehind, if_neg (hrest.head consumed₂).2.2]
    rw [hempty] at hmore
    exact hmore consumed₂
  · have hbrace : peekChar ⟨consumed₂, behind⟩ = '{' := by
      rw [hbehind, if_neg hempty, printSelectionSet_eq hempty]
      rfl
    simp only [if_pos hbrace]
    rw [hbehind, if_neg hempty]
    refine (hchildren hempty consumed₂).bind fun consumed₃ => ?_
    obtain ⟨consumed₄, hskip⟩ := hrest.again consumed₃
    simp only [hskip]
    exact hmore consumed₄

theorem parseSelectionSet_brace {rest'' : List Char} (hskips : Skips rest rest')
    (h : ∀ consumed, Reads (parseFields vars fuel [] ⟨consumed, rest'⟩) fields rest'') :
    Reads (parseSelectionSet vars (fuel + 1) ⟨consumed, '{' :: rest⟩) fields rest'' := by
  obtain ⟨consumed', hskip⟩ := hskips ('{' :: consumed)
  have hbrace : ¬peekChar ⟨consumed, '{' :: rest⟩ ≠ '{' := by simp [peekChar]
  rw [parseSelectionSet, if_neg hbrace, advance, hskip]
  exact h consumed'

variable (vars) in
/-- The selection set below a field is read back. -/
def ReadsSelections (field : FieldNode) : Prop :=
  field.selectionSet ≠ [] → ∀ {fuel : ℕ} {consumed rest rest' : List Char},
    (printSelectionSet field.selectionSet).length < fuel → Skips rest rest' →
    Reads (parseSelectionSet vars fuel ⟨consumed, printSelectionSet field.selectionSet ++ rest⟩)
      field.selectionSet rest'

/-- The list of fields, given that each reads its own selections back. -/
theorem parseFields_printFields (h : ∀ field ∈ fields, field.isPrintable)
    (hfields : ∀ field ∈ fields, ReadsSelections vars field)
    (hfuel : (printFields fields).length + 1 < fuel) (hskips : Skips rest rest') :
    Reads (parseFields vars fuel [] ⟨consumed, printFields fields ++ '}' :: rest⟩)
      fields rest' := by
  refine fieldListing.reads (stops_fields h) (fun fuel consumed => ?_) ?_ rfl hfuel
  · obtain ⟨consumed', hskip⟩ := hskips ('}' :: consumed)
    exact ⟨consumed', by simp [parseFields, peekChar, advance, hskip]⟩
  · rintro acc ⟨name, aliasName, args, selectionSet⟩ fields fuel consumed rfl - hlength hmore
    have hchildren := hfields (.mk name aliasName args selectionSet) (by simp)
    have hlength : (printArguments args).length +
        (printSelectionSet selectionSet).length < fuel := by
      simp only [fieldListing, printField, List.length_append] at hlength
      omega
    have hbelow : ∀ field ∈ fields, field.isPrintable :=
      fun field hmem => h field (by simp [hmem])
    have hrest := follows_printMoreFields hbelow rest
    exact parseFields_field (h _ (by simp)) (by omega) hrest (fun hne consumed =>
      hchildren hne (lt_of_le_of_lt (Nat.le_add_left _ _) hlength) hrest.skips) hmore

theorem isPrintable_of_fields : ∀ {fields : List FieldNode}, fieldsPrintable fields →
    ∀ field ∈ fields, field.isPrintable
  | [], _ => List.forall_mem_nil _
  | field :: fields, h => by
    simp only [fieldsPrintable, Bool.and_eq_true] at h
    exact List.forall_mem_cons.mpr ⟨h.1, isPrintable_of_fields h.2⟩

mutual

theorem readsSelections : ∀ {field : FieldNode}, field.isPrintable →
    ReadsSelections vars field
  | .mk name aliasName args selectionSet, h, hne, fuel, consumed, rest, rest', hfuel, hskips => by
    simp only [FieldNode.isPrintable, Bool.and_eq_true] at h
    simp only [FieldNode.selectionSet] at hne hfuel ⊢
    rw [printSelectionSet_eq hne] at hfuel ⊢
    simp only [List.length_cons, List.length_append, List.length_nil] at hfuel
    obtain ⟨fuel, rfl⟩ : ∃ n, fuel = n + 1 := ⟨fuel - 1, by omega⟩
    have hfields := isPrintable_of_fields h.2
    rw [List.cons_append, List.append_assoc]
    exact parseSelectionSet_brace (follows_printMoreFields hfields rest).again fun consumed =>
      parseFields_printFields hfields (readsSelections_of_fields h.2) (by omega) hskips

theorem readsSelections_of_fields : ∀ {fields : List FieldNode}, fieldsPrintable fields →
    ∀ field ∈ fields, ReadsSelections vars field
  | [], _ => List.forall_mem_nil _
  | field :: fields, h => by
    simp only [fieldsPrintable, Bool.and_eq_true] at h
    exact List.forall_mem_cons.mpr ⟨readsSelections h.1, readsSelections_of_fields h.2⟩

end

/-! ## Documents -/

theorem ends_printOperationName (name : String) (rest : List Char) :
    Ends (printOperationName name ++ '{' :: rest) := by
  unfold printOperationName
  split
  · exact ends_cons _ (by decide)
  · exact ends_cons _ (by decide)

theorem readOperationName_printOperationName (consumed rest : List Char)
    (h : name = "" ∨ isName name) :
    ∃ consumed', readOperationName (skipWhitespaceAndComments
        ⟨consumed, printOperationName name ++ '{' :: rest⟩) = (name, ⟨consumed', '{' :: rest⟩) := by
  have hbrace : ∀ consumed, skipWhitespaceAndComments ⟨consumed, '{' :: rest⟩ =
      ⟨consumed, '{' :: rest⟩ := fun consumed => skip_of_isStop (by decide)
  unfold printOperationName
  rcases h with rfl | h
  · refine ⟨consumed, ?_⟩
    rw [if_pos rfl, List.nil_append, hbrace]
    simp [readOperationName, peekChar]
  · obtain ⟨consumed', hread⟩ := readIdent_name (' ' :: consumed) h
      (ends_cons (c := '{') rest (by decide))
    refine ⟨consumed', ?_⟩
    rw [if_neg (isName_ne_empty h), List.cons_append, skip_blank (by decide), skip_name h,
      readOperationName, if_pos]
    · simp only [hread, hbrace]
    · rw [peekIdent, hread]
      exact ⟨isName_ne_empty h, peekChar_name _ _ h (by decide), peekChar_name _ _ h (by decide),
        peekChar_name _ _ h (by decide)⟩

theorem isName_keyword (type : OperationType) : isName type.keyword := by
  cases type <;> decide

/-- The keyword of an operation selects its type. -/
theorem keyword_token (type : OperationType) :
    type.keyword ≠ "subscription" ∧ (type.keyword = "query" ∨ type.keyword = "mutation") ∧
      (if type.keyword = "mutation" then OperationType.mutation else .query) = type := by
  cases type <;> decide

/-- Behind a keyword and a name that are followed by a selection set, there are no variable
definitions and no directives to read. -/
theorem parseOperation_printOperation {operationNode : OperationNode} (h : operationNode.Printable)
    (hfuel : (printFields operationNode.selectionSet).length + 2 < fuel) :
    Reads (parseOperation vars fuel ⟨[], operationNode.type.keyword.toList ++
      (printOperationName operationNode.name ++
        '{' :: (printFields operationNode.selectionSet ++ ['}']))⟩) operationNode [] := by
  obtain ⟨fuel, rfl⟩ : ∃ n, fuel = n + 1 := ⟨fuel - 1, by omega⟩
  rcases operationNode with ⟨type, name, cacheTTL, cacheKeySuffix, selectionSet⟩
  obtain ⟨hname, httl, hsuffix, hfields⟩ := h
  simp only at hname httl hsuffix hfields hfuel ⊢
  subst httl hsuffix
  obtain ⟨consumed₁, hkeyword⟩ := readIdent_name [] (isName_keyword type)
    (ends_printOperationName name (printFields selectionSet ++ ['}']))
  obtain ⟨consumed₂, hreadName⟩ := readOperationName_printOperationName consumed₁
    (printFields selectionSet ++ ['}']) hname
  have hselection : Reads (parseSelectionSet vars (fuel + 1)
      ⟨consumed₂, '{' :: (printFields selectionSet ++ ['}'])⟩) selectionSet [] :=
    parseSelectionSet_brace (follows_printMoreFields (isPrintable_of_fields hfields) []).again
      fun consumed => parseFields_printFields (isPrintable_of_fields hfields)
        (readsSelections_of_fields hfields) (by omega) fun consumed => ⟨consumed, rfl⟩
  have hdirectives : parseDirectives vars (fuel + 1) ⟨0, ""⟩
      (skipVariableDefinitions ⟨consumed₂, '{' :: (printFields selectionSet ++ ['}'])⟩) =
      .ok (⟨0, ""⟩, ⟨consumed₂, '{' :: (printFields selectionSet ++ ['}'])⟩) := by
    simp [skipVariableDefinitions, parseDirectives, peekChar]
  obtain ⟨hsubscription, hoperation, htype⟩ := keyword_token type
  have hbrace : ¬peekChar ⟨consumed₂, '{' :: (printFields selectionSet ++ ['}'])⟩ ≠ '{' := by
    simp [peekChar]
  simp only [parseOperation, peekIdent, hkeyword, if_neg hsubscription, if_pos hoperation, htype,
    hreadName, hdirectives]
  obtain ⟨consumed₃, hselection⟩ := hselection
  refine ⟨consumed₃, ?_⟩
  simp only [bind, Except.bind, if_neg hbrace, hselection]

end Parser

/-- The parser gives back every operation it is shown the text of, asked for it by name or not. -/
theorem parseGraphQLWithOperation_printOperation {operationNode : OperationNode}
    (h : operationNode.Printable) {targetOperationName : String}
    (htarget : targetOperationName = "" ∨ targetOperationName = operationNode.name)
    (vars : GoMap Value) :
    parseGraphQLWithOperation (printOperation operationNode) targetOperationName vars =
      .ok operationNode := by
  rcases hrunes : (printOperation operationNode).toList with _ | ⟨first, runes⟩
  · simp [printOperation, printOperationName] at hrunes
  have htext : (printOperation operationNode).toList = operationNode.type.keyword.toList ++
      (printOperationName operationNode.name ++
        '{' :: (printFields operationNode.selectionSet ++ ['}'])) := String.toList_ofList
  have hlength : (printFields operationNode.selectionSet).length + 2 ≤
      (printOperation operationNode).toList.length := by
    rw [htext]
    simp only [List.length_append, List.length_cons, List.length_nil]
    omega
  have hskip : Parser.skipWhitespaceAndComments ⟨[], (printOperation operationNode).toList⟩ =
      ⟨[], (printOperation operationNode).toList⟩ := by
    rw [htext]
    exact Parser.skip_name (Parser.isName_keyword operationNode.type)
  have heof : ¬Parser.isEOF ⟨[], (printOperation operationNode).toList⟩ := by
    simp [Parser.isEOF, hrunes]
  have hparse : Parser.Reads (Parser.parseOperation vars
      ((printOperation operationNode).toList.length + 1)
      ⟨[], (printOperation operationNode).toList⟩) operationNode [] := by
    rw [htext] at hlength ⊢
    exact Parser.parseOperation_printOperation h (by omega)
  obtain ⟨consumed, hparse⟩ := hparse
  unfold parseGraphQLWithOperation
  simp only [hskip]
  rw [if_neg heof, Parser.parseOperations, if_neg heof, hparse]
  show (if _ then _ else _) = _
  rw [if_pos]
  exact htarget.imp_right Eq.symm

/-- The posts with a given title, under an alias and with their authors. -/
def postsQuery : OperationNode :=
  { type := .query, name := "Posts", cacheTTL := 0, cacheKeySuffix := "",
    selectionSet := [.mk "posts" "items"
      [("where", .obj [("title", .obj [("_eq", .str "a\"b")])]), ("limit", .int (-5))]
      [.mk "id" "" [] [], .mk "author" "" [] [.mk "name" "" [] []]]] }

theorem parse_postsQuery :
    printOperation postsQuery =
        "query Posts\x7bitems:posts(where:\x7btitle:\x7b_eq:\"a\\\"b\"\x7d\x7d,limit:-5)" ++
          "\x7bid author\x7bname\x7d\x7d\x7d" ∧
      parseGraphQLWithOperation (printOperation postsQuery) "Posts" [] = .ok postsQuery :=
  ⟨by decide +kernel, parseGraphQLWithOperation_printOperation
    ⟨by decide, by decide, by decide, by decide⟩ (by decide) []⟩

end Layr.Graphql
