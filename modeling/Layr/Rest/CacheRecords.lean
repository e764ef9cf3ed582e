import Layr.Kv.KeyRecords
import Layr.Rest.Accepted
import Layr.Rest.Builder
import Layr.Rest.Cache

/-!
# What the key of a list request records

The hashed tuple holds fields, relations, filters and orders joined by separators. Names hold no
separator, and the text of a relation is closed by its bracket, so fields and relations can be read
off up to their order, and orders exactly. Filters cannot: their values may hold the separator, and
negation and language are not written. Where neither is the case, the clauses can be read off up to
their order.
-/

namespace Layr.Rest

open Go Kv Codes Strings

variable {c : Char} {r s : List Char} {fields : List String} {queryParams : QueryParams}
  {part : String}

/-! ## Names -/

theorem ne_nil_of_isField {field : String} (h : isField field) : field.toList ≠ [] := by
  by_cases hstar : field = "*"
  · subst hstar
    decide
  · exact ne_nil_of_isValidIdentifier (by simpa [isField, hstar] using h)

/-- A field has the runes of identifiers only, or is a star. -/
theorem notMem_of_isField {field : String} (h : isField field)
    (hc : isIdentifierRune c = false) (hstar : c ≠ '*') : c ∉ field.toList := by
  by_cases heq : field = "*"
  · subst heq
    intro hmem
    exact hstar (List.mem_singleton.mp hmem)
  · exact notMem_of_isValidIdentifier (by simpa [isField, heq] using h) hc

theorem toList_join {sep : String} (hsep : sep.toList = [c]) (parts : List String) :
    (join sep parts).toList = joined c String.toList parts := by
  induction parts with
  | nil => rfl
  | cons part parts ih =>
    cases parts with
    | nil => rfl
    | cons =>
      rw [join_cons_cons, String.toList_append, String.toList_append, ih, hsep]
      simp [joined]

/-- Lists of fields, in front of a closing bracket or at the end. -/
theorem fields_append_inj {fields fields' : List String} {r s : List Char}
    (hfields : fields.all isField) (hfields' : fields'.all isField)
    (hr : Stops (· = ')') r) (hs : Stops (· = ')') s)
    (h : (join "," fields).toList ++ r = (join "," fields').toList ++ s) :
    fields = fields' ∧ r = s := by
  have hwords : ∀ {fields : List String}, fields.all isField → ∀ field ∈ fields,
      field.toList ≠ [] ∧ ∀ c ∈ field.toList, ¬(c = ',' ∨ c = ')') := by
    intro fields hall field hfield
    have hvalid := List.all_eq_true.mp hall field hfield
    refine ⟨ne_nil_of_isField hvalid, ?_⟩
    rintro c hc (rfl | rfl)
    · exact notMem_of_isField hvalid (by decide) (by decide) hc
    · exact notMem_of_isField hvalid (by decide) (by decide) hc
  have hclose : ∀ {r : List Char}, Stops (· = ')') r →
      Stops (fun c => c = ',' ∨ c = ')') r ∧ ∀ t, r ≠ ',' :: t := by
    intro r hr
    refine ⟨fun c hc => .inr (hr c hc), ?_⟩
    rintro t rfl
    exact absurd (hr ',' rfl) (by decide)
  rw [toList_join rfl, toList_join rfl] at h
  exact joined_append_inj_of_words (fun _ _ _ _ => String.toList_inj.mp) (.inl rfl)
    (hwords hfields) (hwords hfields') (hclose hr).1 (hclose hs).1 (hclose hr).2 (hclose hs).2 h

/-! ## Relations -/

theorem childRunes_eq (children : List EmbeddedField) :
    childRunes children = joined ';' embeddedRunes children := by
  induction children with
  | nil => rfl
  | cons child children ih =>
    cases children with
    | nil => rfl
    | cons => rw [childRunes, ih, joined]

/-- The text of a relation starts with its name. -/
theorem embeddedRunes_append (relation : String) (fields : List String)
    (children : List EmbeddedField) (r : List Char) :
    embeddedRunes (.mk relation fields children) ++ r =
      relation.toList ++ '(' :: ((join "," fields).toList ++
        ')' :: '{' :: (joined ';' embeddedRunes children ++ '}' :: r)) := by
  rw [embeddedRunes, childRunes_eq]
  simp

theorem not_stops_embeddedRunes {embedded : EmbeddedField} {stop : Char → Prop}
    (h : isAccepted embedded) (hstop : ∀ c, stop c → isIdentifierRune c = false)
    (r : List Char) : ¬Stops stop (embeddedRunes embedded ++ r) := by
  cases embedded with
  | mk =>
    simp only [isAccepted, Bool.and_eq_true] at h
    rw [embeddedRunes_append]
    apply not_stops_append (ne_nil_of_isValidIdentifier h.1.1)
    intro c hc hc'
    exact notMem_of_isValidIdentifier h.1.1 (hstop c hc') hc

/-- What follows a relation among others. -/
def isBreak (c : Char) : Prop := c = ';' ∨ c = '}'

theorem isIdentifierRune_of_isBreak (c : Char) (h : isBreak c) : isIdentifierRune c = false := by
  rcases h with rfl | rfl
  · decide
  · decide

/-- The text of a relation is closed by its last bracket. -/
theorem embeddedRunes_append_inj (embedded embedded' : EmbeddedField) {r s : List Char}
    (haccepted : isAccepted embedded) (haccepted' : isAccepted embedded')
    (h : embeddedRunes embedded ++ r = embeddedRunes embedded' ++ s) :
    embedded = embedded' ∧ r = s := by
  match embedded, embedded' with
  | .mk relation fields children, .mk relation' fields' children' =>
    simp only [isAccepted, Bool.and_eq_true] at haccepted haccepted'
    rw [embeddedRunes_append, embeddedRunes_append] at h
    obtain ⟨hrelation, h⟩ := append_cons_inj
      (notMem_of_isValidIdentifier haccepted.1.1 (by decide))
      (notMem_of_isValidIdentifier haccepted'.1.1 (by decide)) h
    have hclose : ∀ rest, Stops (· = ')') (')' :: rest) := by
      intro rest
      apply stops_cons
      rfl
    obtain ⟨hfields, hchildren⟩ := fields_append_inj haccepted.1.2 haccepted'.1.2 (hclose _)
      (hclose _) h
    have hsemicolon : isBreak ';' := .inl rfl
    have hbrace : isBreak '}' := .inr rfl
    obtain ⟨hsame, hend⟩ := joined_append_inj hsemicolon
      (fun child hchild child' hchild' r s _ _ heq =>
        embeddedRunes_append_inj child child' (isAccepted_of_mem haccepted.2 hchild)
          (isAccepted_of_mem haccepted'.2 hchild') heq)
      (fun child hchild =>
        not_stops_embeddedRunes (isAccepted_of_mem haccepted.2 hchild) isIdentifierRune_of_isBreak)
      (fun child hchild =>
        not_stops_embeddedRunes (isAccepted_of_mem haccepted'.2 hchild) isIdentifierRune_of_isBreak)
      (stops_cons hbrace _) (stops_cons hbrace _) (by simp) (by simp)
      (List.cons.inj (List.cons.inj hchildren).2).2
    exact ⟨by rw [String.toList_inj.mp hrelation, hfields, hsame], (List.cons.inj hend).2⟩
termination_by sizeOf embedded
decreasing_by
  have hlt := List.sizeOf_lt_of_mem hchild
  simp only [EmbeddedField.mk.sizeOf_spec]
  omega

/-! ## The parts of `select` -/

/-- The parts of `select` before they are sorted. -/
def selectParts (queryParams : QueryParams) : List String :=
  (if queryParams.fields.length > 0 then [join "," (sort queryParams.fields)]
    else []) ++ queryParams.embedded.map formatEmbeddedField

/-- A part is a list of fields or a relation. -/
inductive IsPart : String → Prop
  | fields (fields : List String) (hne : fields ≠ []) (hfields : fields.all isField) :
      IsPart (join "," fields)
  | embedded (embedded : EmbeddedField) (haccepted : isAccepted embedded) :
      IsPart (formatEmbeddedField embedded)

theorem all_isField_sort (h : fields.all isField) :
    (sort fields).all isField := by
  rw [List.all_eq_true] at h ⊢
  intro field hfield
  exact h field (mem_sort.mp hfield)

theorem isPart_of_mem_selectParts (haccepted : queryParams.Accepted)
    (h : part ∈ selectParts queryParams) : IsPart part := by
  rcases List.mem_append.mp h with h | h
  · split at h
    · rename_i hlength
      rw [List.mem_singleton.mp h]
      refine .fields _ ?_ (all_isField_sort haccepted.fields)
      intro hnil
      have hperm := sort_perm queryParams.fields
      rw [hnil] at hperm
      simp [hperm.symm.eq_nil] at hlength
    · cases h
  · obtain ⟨embedded, hmem, rfl⟩ := List.mem_map.mp h
    exact .embedded embedded (isAccepted_of_mem haccepted.embedded hmem)

theorem notMem_join_fields (hfields : fields.all isField) (hc : isIdentifierRune c = false)
    (hstar : c ≠ '*') (hcomma : c ≠ ',') : c ∉ (join "," fields).toList := by
  intro hmem
  rw [toList_join rfl] at hmem
  rcases mem_joined hmem with heq | ⟨field, hfield, hmem⟩
  · exact hcomma heq
  · exact notMem_of_isField (List.all_eq_true.mp hfields field hfield) hc hstar hmem

theorem join_fields_ne_nil (hne : fields ≠ []) (hfields : fields.all isField) :
    (join "," fields).toList ≠ [] := by
  cases fields with
  | nil => exact absurd rfl hne
  | cons field fields =>
    have hfield := ne_nil_of_isField (List.all_eq_true.mp hfields field (by simp))
    have hjoined := joined_cons_append ',' String.toList field fields []
    rw [List.append_nil] at hjoined
    rw [toList_join (c := ',') rfl, hjoined]
    simp [hfield]

/-- The text of fields is never the text of a relation: it has no bracket. -/
theorem fields_ne_embedded {embedded : EmbeddedField} (hfields : fields.all isField)
    (haccepted : isAccepted embedded) (hr : Stops (· = ';') r) :
    (join "," fields).toList ++ r ≠ embeddedRunes embedded ++ s := by
  cases embedded with
  | mk relation =>
    simp only [isAccepted, Bool.and_eq_true] at haccepted
    rw [embeddedRunes_append]
    intro h
    have hstops : Stops (fun c => c = ';' ∨ c = '(') r := fun c hc => .inl (hr c hc)
    have hopen : ∀ rest, Stops (fun c => c = ';' ∨ c = '(') ('(' :: rest) := by
      intro rest
      apply stops_cons
      exact .inr rfl
    have hleft : ∀ c ∈ (join "," fields).toList, ¬(c = ';' ∨ c = '(') := by
      rintro c hc (rfl | rfl)
      · exact notMem_join_fields hfields (by decide) (by decide) (by decide) hc
      · exact notMem_join_fields hfields (by decide) (by decide) (by decide) hc
    have hright : ∀ c ∈ relation.toList, ¬(c = ';' ∨ c = '(') := by
      rintro c hc (rfl | rfl)
      · exact notMem_of_isValidIdentifier haccepted.1.1 (by decide) hc
      · exact notMem_of_isValidIdentifier haccepted.1.1 (by decide) hc
    have hrest := (append_inj_of_stops hleft hright hstops (hopen _) h).2
    exact absurd (hr '(' (by rw [hrest]; rfl)) (by decide)

/-- A part can be told from what follows a semicolon or the end. -/
theorem part_append_inj {part' : String} (hpart : IsPart part) (hpart' : IsPart part')
    (hr : Stops (· = ';') r) (hs : Stops (· = ';') s)
    (h : part.toList ++ r = part'.toList ++ s) : part = part' ∧ r = s := by
  have hfieldRunes : ∀ {fields : List String}, fields.all isField →
      ∀ c ∈ (join "," fields).toList, ¬c = ';' := by
    rintro fields hfields c hc rfl
    exact notMem_join_fields hfields (by decide) (by decide) (by decide) hc
  have hrunes : ∀ embedded, (formatEmbeddedField embedded).toList = embeddedRunes embedded :=
    fun _ => String.toList_ofList
  cases hpart with
  | fields fields _ hfields =>
    cases hpart' with
    | fields fields' _ hfields' =>
      have hparts := append_inj_of_stops (hfieldRunes hfields) (hfieldRunes hfields') hr hs h
      exact ⟨String.toList_inj.mp hparts.1, hparts.2⟩
    | embedded embedded haccepted =>
      rw [hrunes] at h
      exact absurd h (fields_ne_embedded hfields haccepted hr)
  | embedded embedded haccepted =>
    rw [hrunes] at h
    cases hpart' with
    | fields fields' _ hfields' =>
      exact absurd h.symm (fields_ne_embedded hfields' haccepted hs)
    | embedded embedded' haccepted' =>
      rw [hrunes] at h
      obtain ⟨rfl, hrest⟩ := embeddedRunes_append_inj _ _ haccepted haccepted' h
      exact ⟨rfl, hrest⟩

theorem not_stops_part (hpart : IsPart part) (r : List Char) :
    ¬Stops (· = ';') (part.toList ++ r) := by
  cases hpart with
  | fields fields hne hfields =>
    apply not_stops_append (join_fields_ne_nil hne hfields)
    rintro c hc rfl
    exact notMem_join_fields hfields (by decide) (by decide) (by decide) hc
  | embedded embedded haccepted =>
    rw [formatEmbeddedField, String.toList_ofList]
    apply not_stops_embeddedRunes haccepted
    rintro c rfl
    decide

/-- No part starts with the separator, so the parts are read off the text. -/
theorem join_parts_inj {parts parts' : List String} (hparts : ∀ part ∈ parts, IsPart part)
    (hparts' : ∀ part ∈ parts', IsPart part)
    (h : join ";" parts = join ";" parts') : parts = parts' := by
  have hlist := congrArg String.toList h
  rw [toList_join (c := ';') rfl, toList_join (c := ';') rfl,
    ← List.append_nil (joined _ _ parts), ← List.append_nil (joined _ _ parts')] at hlist
  have hstart : ∀ {parts : List String}, (∀ part ∈ parts, IsPart part) →
      ∀ part ∈ parts, ∀ r, ¬Stops (· = ';') (part.toList ++ r) := by
    intro parts hparts part hmem
    exact not_stops_part (hparts part hmem)
  refine (joined_append_inj (by rfl) ?_ (hstart hparts) (hstart hparts') (stops_nil _)
    (stops_nil _) (by simp) (by simp) hlist).1
  intro part hmem part' hmem' r s hr hs heq
  exact part_append_inj (hparts part hmem) (hparts' part' hmem') hr hs heq

theorem contains_bracket_embedded (embedded : EmbeddedField) :
    containsRune (formatEmbeddedField embedded) '(' := by
  cases embedded with
  | mk relation fields children =>
    have hrunes := embeddedRunes_append relation fields children []
    rw [List.append_nil] at hrunes
    simp [containsRune, formatEmbeddedField, hrunes]

theorem contains_bracket_fields (hfields : fields.all isField) :
    containsRune (join "," fields) '(' = false := by
  have hnot := notMem_join_fields (c := '(') hfields (by decide) (by decide) (by decide)
  simpa [containsRune] using hnot

/-- The relations are the parts with a bracket. -/
theorem filter_bracket_selectParts (haccepted : queryParams.Accepted) :
    (selectParts queryParams).filter (containsRune · '(') =
      queryParams.embedded.map formatEmbeddedField := by
  have hfields := contains_bracket_fields (all_isField_sort haccepted.fields)
  have hembedded : ∀ part ∈ queryParams.embedded.map formatEmbeddedField,
      containsRune part '(' := by
    intro part hpart
    obtain ⟨embedded, -, rfl⟩ := List.mem_map.mp hpart
    exact contains_bracket_embedded embedded
  rw [selectParts, List.filter_append, List.filter_eq_self.mpr hembedded]
  split <;> simp [hfields]

theorem formatEmbeddedField_injOn :
    Set.InjOn formatEmbeddedField { embedded | isAccepted embedded = true } := by
  intro embedded haccepted embedded' haccepted' h
  have hrunes : embeddedRunes embedded ++ [] = embeddedRunes embedded' ++ [] := by
    rw [String.ofList_injective h]
  exact (embeddedRunes_append_inj embedded embedded' haccepted haccepted' hrunes).1

/-- Texts of relations determine the relations, whatever their order. -/
theorem embedded_perm {list list' : List EmbeddedField} (hlist : areAccepted list)
    (hlist' : areAccepted list')
    (h : (list.map formatEmbeddedField).Perm (list'.map formatEmbeddedField)) :
    list.Perm list' := by
  have : Nonempty EmbeddedField := ⟨.mk "" [] []⟩
  have hinv : ∀ {list : List EmbeddedField}, areAccepted list →
      (list.map formatEmbeddedField).map
        (Function.invFunOn formatEmbeddedField
          { embedded | isAccepted embedded = true }) = list := by
    intro list hlist
    rw [List.map_map]
    conv_rhs => rw [← List.map_id list]
    refine List.map_congr_left fun embedded hmem => ?_
    exact formatEmbeddedField_injOn.leftInvOn_invFunOn (isAccepted_of_mem hlist hmem)
  rw [← hinv hlist, ← hinv hlist']
  exact h.map _

/-- What `select` records: the fields and the relations, without their order. -/
theorem select_eq_iff {queryParams' : QueryParams} (haccepted : queryParams.Accepted)
    (haccepted' : queryParams'.Accepted) :
    join ";" (sort (selectParts queryParams)) =
        join ";" (sort (selectParts queryParams')) ↔
      queryParams.fields.Perm queryParams'.fields ∧
        queryParams.embedded.Perm queryParams'.embedded := by
  constructor
  · intro h
    have hsorted := join_parts_inj
      (fun part hpart => isPart_of_mem_selectParts haccepted (mem_sort.mp hpart))
      (fun part hpart => isPart_of_mem_selectParts haccepted' (mem_sort.mp hpart)) h
    have hperm : (selectParts queryParams).Perm (selectParts queryParams') :=
      (sort_perm _).symm.trans (hsorted ▸ sort_perm _)
    have hembedded := hperm.filter (containsRune · '(')
    rw [filter_bracket_selectParts haccepted, filter_bracket_selectParts haccepted'] at hembedded
    have hfields := (List.perm_append_right_iff _).mp (hperm.trans (hembedded.symm.append_left _))
    refine ⟨?_, embedded_perm haccepted.embedded haccepted'.embedded hembedded⟩
    split at hfields
    · split at hfields
      · have htext := List.singleton_perm_singleton.mp hfields
        have hlist := congrArg (fun text => text.toList ++ []) htext
        have hsort := (fields_append_inj (all_isField_sort haccepted.fields)
          (all_isField_sort haccepted'.fields) (stops_nil _) (stops_nil _) hlist).1
        exact (sort_perm _).symm.trans (hsort ▸ sort_perm _)
      · exact absurd hfields.eq_nil (by simp)
    · split at hfields
      · exact absurd hfields.symm.eq_nil (by simp)
      · rename_i hempty hempty'
        rw [List.length_eq_zero_iff.mp (Nat.eq_zero_of_not_pos hempty),
          List.length_eq_zero_iff.mp (Nat.eq_zero_of_not_pos hempty')]
  · rintro ⟨hfields, hembedded⟩
    have hparts : (selectParts queryParams).Perm (selectParts queryParams') := by
      unfold selectParts
      rw [hfields.length_eq, sort_eq_of_perm hfields]
      exact (hembedded.map _).append_left _
    rw [sort_eq_of_perm hparts]

/-! ## Orders -/

theorem boolText_dot_inj {b b' n n' : Bool}
    (h : (boolText b).toList ++ '.' :: (boolText n).toList =
      (boolText b').toList ++ '.' :: (boolText n').toList) : b = b' ∧ n = n' := by
  revert h
  cases b <;> cases b' <;> cases n <;> cases n' <;> decide

theorem toList_orderString (order : OrderBy) :
    (orderString order).toList =
      order.column.toList ++ '.' :: ((boolText order.desc).toList ++
        '.' :: (boolText order.nullsLast).toList) := by
  simp [orderString]

theorem orderString_inj {order order' : OrderBy} (hcolumn : isValidIdentifier order.column)
    (hcolumn' : isValidIdentifier order'.column)
    (h : (orderString order).toList = (orderString order').toList) : order = order' := by
  rw [toList_orderString, toList_orderString] at h
  obtain ⟨hcolumns, hflags⟩ := append_cons_inj
    (notMem_of_isValidIdentifier hcolumn (by decide))
    (notMem_of_isValidIdentifier hcolumn' (by decide)) h
  obtain ⟨hdesc, hnulls⟩ := boolText_dot_inj hflags
  cases order
  cases order'
  simp_all [String.toList_inj]

/-- An order is not empty and has no comma. -/
theorem orderString_word {order : OrderBy} (hcolumn : isValidIdentifier order.column) :
    (orderString order).toList ≠ [] ∧ ∀ c ∈ (orderString order).toList, ¬c = ',' := by
  rw [toList_orderString]
  refine ⟨by simp, ?_⟩
  rintro c hc rfl
  have hbool : ∀ b, ',' ∉ (boolText b).toList := by decide
  simp only [List.mem_append, List.mem_cons] at hc
  rcases hc with hc | hc | hc | hc | hc
  · exact notMem_of_isValidIdentifier hcolumn (by decide) hc
  · exact absurd hc (by decide)
  · exact hbool _ hc
  · exact absurd hc (by decide)
  · exact hbool _ hc

/-- Orders are recorded exactly. -/
theorem order_eq_iff {orders orders' : List OrderBy}
    (hvalid : ∀ order ∈ orders, isValidIdentifier order.column)
    (hvalid' : ∀ order ∈ orders', isValidIdentifier order.column) :
    join "," (orders.map orderString) = join "," (orders'.map orderString) ↔
      orders = orders' := by
  refine ⟨fun h => ?_, fun h => by rw [h]⟩
  have hlist := congrArg String.toList h
  rw [toList_join (c := ',') rfl, toList_join (c := ',') rfl, joined_map, joined_map,
    ← List.append_nil (joined _ _ orders),
    ← List.append_nil (joined _ _ orders')] at hlist
  have hwords := fun order hmem => orderString_word (hvalid order hmem)
  have hwords' := fun order hmem => orderString_word (hvalid' order hmem)
  refine (joined_append_inj_of_words ?_ (by rfl) hwords hwords' (stops_nil _)
    (stops_nil _) (by simp) (by simp) hlist).1
  intro order hmem order' hmem'
  exact orderString_inj (hvalid order hmem) (hvalid' order' hmem')

/-! ## Filters -/

/-- Filters whose text says all: they are not negated, search texts in the one given language, and
hold no ampersand in what they compare with. -/
structure FilterOp.Plain (language : String) (filterOp : FilterOp) : Prop where
  negated : filterOp.negated = false
  extra : filterOp.op = .fts → filterOp.extra = language
  value : '&' ∉ filterOp.value.toList
  values : ∀ value ∈ filterOp.values, '&' ∉ value.toList

/-- The text of the operands. -/
def valueString (filterOp : FilterOp) : String :=
  if filterOp.values.length > 0 then join "," filterOp.values else filterOp.value

/-- Column, operator and value, with dots between them. -/
theorem toList_filterString (filterOp : FilterOp) :
    (filterString filterOp).toList = filterOp.column.toList ++
      '.' :: (filterOp.op.text.toList ++ '.' :: (valueString filterOp).toList) := by
  simp [filterString, valueString]

theorem notMem_text (op : Operator) : '.' ∉ op.text.toList ∧ '&' ∉ op.text.toList := by
  cases op <;> decide

theorem text_injective : Function.Injective Operator.text := by
  intro op op' h
  cases op <;> cases op' <;> first | rfl | (revert h; decide)

/-- A plain filter is a word without the separator of filters. -/
theorem FilterOp.Plain.word {language : String} {filterOp : FilterOp}
    (hplain : filterOp.Plain language) (hcolumn : isValidIdentifier filterOp.column) :
    filterString filterOp ≠ "" ∧ '&' ∉ (filterString filterOp).toList := by
  constructor
  · intro hempty
    have hlist := congrArg String.toList hempty
    rw [toList_filterString] at hlist
    simp at hlist
  · have hvalue : '&' ∉ (valueString filterOp).toList := by
      unfold valueString
      split
      · rw [toList_join (c := ',') rfl]
        intro hmem
        rcases mem_joined hmem with heq | ⟨value, hvalue, hmem⟩
        · exact absurd heq (by decide)
        · exact hplain.values value hvalue hmem
      · exact hplain.value
    rw [toList_filterString]
    simp only [List.mem_append, List.mem_cons, not_or]
    exact ⟨notMem_of_isValidIdentifier hcolumn (by decide), by decide,
      (notMem_text filterOp.op).2, by decide, hvalue⟩

/-- Plain filters with one text have one clause. -/
theorem buildClause_eq_of_filterString_eq {language : String} {filterOp filterOp' : FilterOp}
    (hparsed : filterOp.Parsed) (hparsed' : filterOp'.Parsed) (hplain : filterOp.Plain language)
    (hplain' : filterOp'.Plain language) (h : filterString filterOp = filterString filterOp') :
    buildClause filterOp = buildClause filterOp' := by
  have hlist := congrArg String.toList h
  rw [toList_filterString, toList_filterString] at hlist
  obtain ⟨hcolumn, hrest⟩ := append_cons_inj
    (notMem_of_isValidIdentifier hparsed.column (by decide))
    (notMem_of_isValidIdentifier hparsed'.column (by decide)) hlist
  obtain ⟨htext, hvalue⟩ := append_cons_inj (notMem_text _).1 (notMem_text _).1 hrest
  have hcolumn := String.toList_inj.mp hcolumn
  have hop := text_injective (String.toList_inj.mp htext)
  have hvalue := String.toList_inj.mp hvalue
  by_cases hlisted : filterOp.op = .isIn ∨ filterOp.op = .cs
  · obtain ⟨hne, hcommas⟩ := hparsed.listed hlisted
    obtain ⟨hne', hcommas'⟩ := hparsed'.listed (hop ▸ hlisted)
    have hvalues : filterOp.values = filterOp'.values := by
      rw [valueString, if_pos (List.length_pos_iff.mpr hne), valueString,
        if_pos (List.length_pos_iff.mpr hne')] at hvalue
      have hsplit := congrArg (split ',') hvalue
      rwa [show "," = String.singleton ',' from rfl, split_join hcommas hne,
        split_join hcommas' hne'] at hsplit
    rcases hlisted with hin | hcs
    · simp only [buildClause, hin, ← hop, hcolumn, hvalues, hplain.negated, hplain'.negated]
    · simp only [buildClause, hcs, ← hop, hcolumn, hvalues, hplain.negated, hplain'.negated]
  · have hvalue : filterOp.value = filterOp'.value := by
      simpa [valueString, hparsed.unlisted hlisted, hparsed'.unlisted (hop ▸ hlisted)] using hvalue
    have hextra : filterOp.op = .fts → filterOp.extra = filterOp'.extra := by
      intro hfts
      rw [hplain.extra hfts, hplain'.extra (hop ▸ hfts)]
    unfold buildClause comparisonClause
    rw [← hop, hcolumn, hvalue, hplain.negated, hplain'.negated]
    cases hcase : filterOp.op <;> simp_all

/-- Lists of words without the separator. -/
theorem join_words_inj {words words' : List String}
    (h : ∀ word ∈ words, word ≠ "" ∧ '&' ∉ word.toList)
    (h' : ∀ word ∈ words', word ≠ "" ∧ '&' ∉ word.toList)
    (hjoin : join "&" words = join "&" words') : words = words' := by
  have hsplit : ∀ {words : List String}, (∀ word ∈ words, word ≠ "" ∧ '&' ∉ word.toList) →
      (split '&' (join "&" words)).filter (· ≠ "") = words := by
    intro words h
    cases words with
    | nil => rfl
    | cons word rest =>
      rw [show "&" = String.singleton '&' from rfl,
        split_join (fun w hw => (h w hw).2) (by simp), List.filter_eq_self]
      exact fun w hw => decide_eq_true (h w hw).1
  rw [← hsplit h, hjoin, hsplit h']

/-- Texts of plain filters determine their clauses, whatever the order. -/
theorem clauses_perm {language : String} {filters filters' : List FilterOp}
    (hparsed : ∀ filterOp ∈ filters, filterOp.Parsed ∧ filterOp.Plain language)
    (hparsed' : ∀ filterOp ∈ filters', filterOp.Parsed ∧ filterOp.Plain language)
    (h : join "&" (sort (filters.map filterString)) =
      join "&" (sort (filters'.map filterString))) :
    (filters.map buildClause).Perm (filters'.map buildClause) := by
  have hwords : ∀ {filters : List FilterOp},
      (∀ filterOp ∈ filters, filterOp.Parsed ∧ filterOp.Plain language) →
      ∀ word ∈ sort (filters.map filterString), word ≠ "" ∧ '&' ∉ word.toList := by
    intro filters hfilters word hword
    obtain ⟨filterOp, hmem, rfl⟩ := List.mem_map.mp (mem_sort.mp hword)
    exact (hfilters filterOp hmem).2.word (hfilters filterOp hmem).1.column
  have hsorted := join_words_inj (hwords hparsed) (hwords hparsed') h
  have hperm : (filters.map filterString).Perm (filters'.map filterString) :=
    (sort_perm _).symm.trans (hsorted ▸ sort_perm _)
  -- the clause of a text is that of any plain filter with the text
  let plain : Set FilterOp := { filterOp | filterOp.Parsed ∧ filterOp.Plain language }
  have : Nonempty FilterOp := ⟨⟨"", .eq, "", "", [], false⟩⟩
  have hclause : ∀ {filters : List FilterOp}, (∀ filterOp ∈ filters, filterOp ∈ plain) →
      (filters.map filterString).map (fun text =>
        buildClause (Function.invFunOn filterString plain text)) = filters.map buildClause := by
    intro filters hfilters
    rw [List.map_map]
    refine List.map_congr_left fun filterOp hmem => ?_
    have hexists : ∃ found ∈ plain, filterString found = filterString filterOp :=
      ⟨filterOp, hfilters filterOp hmem, rfl⟩
    have hfound := Function.invFunOn_mem hexists
    exact buildClause_eq_of_filterString_eq hfound.1 (hfilters filterOp hmem).1 hfound.2
      (hfilters filterOp hmem).2 (Function.invFunOn_eq hexists)
  rw [← hclause hparsed, ← hclause hparsed']
  exact hperm.map _

/-! ## Keys -/

/-- The tuple that is hashed for a list request. -/
def restTuple (schema table : String) (tableVersion : ℤ) (queryParams : QueryParams) :
    RESTQueryTuple where
  schema := schema
  table := table
  tableVersion := tableVersion
  select := join ";" (sort (selectParts queryParams))
  filters := join "&" (sort (queryParams.filters.map filterString))
  order := join "," (queryParams.orders.map orderString)
  limit := queryParams.limit
  offset := queryParams.offset
  countExact := queryParams.countExact

theorem generateUserVisibleRESTKeyWithVersion_eq (digest : Digest) (schema table : String)
    (tableVersion : ℤ) (queryParams : QueryParams) :
    generateUserVisibleRESTKeyWithVersion digest schema table queryParams "" tableVersion =
      "rest:" ++ digest.hex (restTuple schema table tableVersion queryParams).toJson.text := by
  unfold generateUserVisibleRESTKeyWithVersion buildRESTQueryKeyWithVersion
  rw [if_neg (by simp)]
  rfl

/-- What two requests have in common when their keys agree. -/
structure SameRecord (schema table schema' table' : String) (tableVersion tableVersion' : ℤ)
    (queryParams queryParams' : QueryParams) : Prop where
  schema : schema = schema'
  table : table = table'
  tableVersion : tableVersion = tableVersion'
  fields : queryParams.fields.Perm queryParams'.fields
  embedded : queryParams.embedded.Perm queryParams'.embedded
  filters : join "&" (sort (queryParams.filters.map filterString)) =
    join "&" (sort (queryParams'.filters.map filterString))
  orders : queryParams.orders = queryParams'.orders
  limit : queryParams.limit = queryParams'.limit
  offset : queryParams.offset = queryParams'.offset
  countExact : queryParams.countExact = queryParams'.countExact

/-- Keys agree exactly when what they record does. -/
theorem sameKey_iff_sameRecord (digest : Digest) (schema table schema' table' : String)
    (tableVersion tableVersion' : ℤ) {queryParams' : QueryParams} (haccepted : queryParams.Accepted)
    (haccepted' : queryParams'.Accepted) :
    generateUserVisibleRESTKeyWithVersion digest schema table queryParams "" tableVersion =
        generateUserVisibleRESTKeyWithVersion digest schema' table' queryParams' "" tableVersion' ↔
      SameRecord schema table schema' table' tableVersion tableVersion' queryParams
        queryParams' := by
  rw [generateUserVisibleRESTKeyWithVersion_eq, generateUserVisibleRESTKeyWithVersion_eq]
  constructor
  · intro h
    have hhex := (String.append_right_inj "rest:").mp h
    have htuple := RESTQueryTuple.toJson_injective (Json.text_injective (digest.injective hhex))
    simp only [restTuple, RESTQueryTuple.mk.injEq] at htuple
    obtain ⟨hschema, htable, hversion, hselect, hfilters, horder, hlimit, hoffset, hcount⟩ := htuple
    obtain ⟨hfields, hembedded⟩ := (select_eq_iff haccepted haccepted').mp hselect
    have horders := (order_eq_iff haccepted.orders haccepted'.orders).mp horder
    exact ⟨hschema, htable, hversion, hfields, hembedded, hfilters, horders, hlimit, hoffset,
      hcount⟩
  · intro h
    have hselect := (select_eq_iff haccepted haccepted').mpr ⟨h.fields, h.embedded⟩
    unfold restTuple
    rw [h.schema, h.table, h.tableVersion, hselect, h.filters, h.orders, h.limit, h.offset,
      h.countExact]

end Layr.Rest
