import Layr.Go.Result
import Layr.Go.Words
import Layr.Rest.Filter

/-!
# Parameters that are accepted

Every name in accepted parameters is an identifier, or the star among the fields. The nesting of a
`select` parameter is bounded by its length, so its parser does not run out of fuel.
-/

namespace Layr.Rest

open Go

/-! ## Fuel -/

theorem length_trimSpace_le (s : String) :
    (Strings.trimSpace s).toList.length ≤ s.toList.length := by
  obtain ⟨before, behind, -, -, hs⟩ := Strings.toList_eq_trimSpace s
  rw [hs, List.length_append, List.length_append]
  omega

section

variable {rest current : List Char} {results : List String} {depth : ℤ} {n : ℕ}
  (hresults : ∀ token ∈ results, token.toList.length ≤ n)

include hresults

theorem length_le_of_mem_append (hcurrent : current.length ≤ n) :
    ∀ token ∈ results ++ [Strings.trimSpace (String.ofList current)], token.toList.length ≤ n := by
  have hle := length_trimSpace_le (String.ofList current)
  rw [String.toList_ofList] at hle
  rw [List.forall_mem_append, List.forall_mem_singleton]
  exact ⟨hresults, hle.trans hcurrent⟩

/-- A token is no longer than what it was read from. -/
theorem length_le_of_mem_tokenizeFrom (hleft : current.length + rest.length ≤ n) :
    ∀ token ∈ tokenizeFrom results current depth rest, token.toList.length ≤ n := by
  fun_induction tokenizeFrom results current depth rest with
  | case1 => exact length_le_of_mem_append hresults hleft
  | case2 => exact hresults
  | case3 | case4 | case7 =>
    rename_i ih
    refine ih hresults ?_
    simp only [List.length_append, List.length_cons, List.length_nil] at hleft ⊢
    omega
  | case5 =>
    rename_i ih
    -- a comma outside of brackets closes the token
    rw [List.length_cons] at hleft
    exact ih (length_le_of_mem_append hresults (by omega)) (by rw [List.length_nil]; omega)
  | case6 =>
    rename_i ih
    rw [List.length_cons] at hleft
    exact ih hresults (by omega)

end

/-- What stands behind a separator is shorter than the whole. -/
theorem length_lt_of_cut {sep : Char} {s pre behind : String}
    (h : Strings.cut sep s = some (pre, behind)) : behind.toList.length < s.toList.length := by
  rw [(Strings.cut_eq_some h).1, String.toList_append, String.toList_append, List.length_append,
    List.length_append, String.toList_singleton, List.length_singleton]
  omega

theorem length_trimSuffix_le (s suf : String) :
    (Strings.trimSuffix s suf).toList.length ≤ s.toList.length := by
  unfold Strings.trimSuffix
  split
  · rw [String.toList_ofList, List.length_take]
    omega
  · rfl

/-- An error of the tokens is one of their own or of what stands between their brackets. -/
theorem parseTokens_ne_outOfFuel
    {parseInner : String → Except ParamError (List String × List EmbeddedField)}
    {tokens : List String} (bound : ℕ) (hbound : ∀ token ∈ tokens, token.toList.length ≤ bound)
    (hinner : ∀ inner : String, inner.toList.length < bound →
      parseInner inner ≠ .error .outOfFuel) :
    parseTokens parseInner tokens ≠ .error .outOfFuel := by
  induction tokens with
  | nil => simp [parseTokens]
  | cons token tokens ih =>
    have htail := ih fun t ht => hbound t (by simp [ht])
    rw [parseTokens]
    split
    · rename_i relation behind hsuffix hcut
      split
      · simp
      · have hshort : (Strings.trimSuffix behind ")").toList.length < bound := by
          have hle := length_trimSuffix_le behind ")"
          have hlt := length_lt_of_cut hcut
          have htoken := hbound token (by simp)
          omega
        refine Result.bind_ne_error (hinner _ hshort) fun parsed => ?_
        exact Result.bind_ne_error htail fun rest => by simp
    · split
      · simp
      · exact Result.bind_ne_error htail fun rest => by simp

theorem parseSelectFrom_ne_outOfFuel {fuel : ℕ} {raw : String} (h : raw.toList.length < fuel) :
    parseSelectFrom fuel raw ≠ .error .outOfFuel := by
  induction fuel generalizing raw with
  | zero => omega
  | succ fuel ih =>
    rw [parseSelectFrom]
    split
    · simp
    · refine parseTokens_ne_outOfFuel raw.toList.length ?_ ?_
      · refine length_le_of_mem_tokenizeFrom (by simp) ?_
        simpa using length_trimSpace_le raw
      · intro inner hinner
        exact ih (by omega)

/-- The fuel of `parseSelect` suffices. -/
theorem parseSelect_ne_outOfFuel (raw : String) : parseSelect raw ≠ .error .outOfFuel :=
  parseSelectFrom_ne_outOfFuel (Nat.lt_succ_self _)

/-! ## Names -/

/-- A name in a list of fields. -/
def isField (field : String) : Bool := field = "*" || isValidIdentifier field

mutual

/-- A relation and its children with identifiers for names. -/
def isAccepted : EmbeddedField → Bool
  | .mk relation fields children =>
    isValidIdentifier relation && fields.all isField && areAccepted children

def areAccepted : List EmbeddedField → Bool
  | [] => true
  | embedded :: rest => isAccepted embedded && areAccepted rest

end

theorem isAccepted_of_mem {embedded : EmbeddedField} {list : List EmbeddedField}
    (h : areAccepted list) (hmem : embedded ∈ list) : isAccepted embedded := by
  induction list with
  | nil => cases hmem
  | cons head tail ih =>
    rw [areAccepted, Bool.and_eq_true] at h
    rcases List.mem_cons.mp hmem with rfl | hmem
    · exact h.1
    · exact ih h.2 hmem

/-- What is known of an accepted filter: its column is an identifier, and the operators on lists,
and no others, have values, which hold no comma. -/
structure FilterOp.Parsed (filterOp : FilterOp) : Prop where
  column : isValidIdentifier filterOp.column
  listed : filterOp.op = .isIn ∨ filterOp.op = .cs →
    filterOp.values ≠ [] ∧ ∀ value ∈ filterOp.values, ',' ∉ value.toList
  unlisted : ¬(filterOp.op = .isIn ∨ filterOp.op = .cs) → filterOp.values = []

/-- Parameters whose names are identifiers. -/
structure QueryParams.Accepted (queryParams : QueryParams) : Prop where
  fields : queryParams.fields.all isField
  embedded : areAccepted queryParams.embedded
  filters : ∀ filterOp ∈ queryParams.filters, filterOp.Parsed
  orders : ∀ order ∈ queryParams.orders, isValidIdentifier order.column

theorem parseTokens_accepted
    {parseInner : String → Except ParamError (List String × List EmbeddedField)}
    (hinner : ∀ inner fields embedded, parseInner inner = .ok (fields, embedded) →
      fields.all isField ∧ areAccepted embedded)
    {tokens fields : List String} {embedded : List EmbeddedField}
    (h : parseTokens parseInner tokens = .ok (fields, embedded)) :
    fields.all isField ∧ areAccepted embedded := by
  induction tokens generalizing fields embedded with
  | nil =>
    obtain ⟨rfl, rfl⟩ := Prod.mk.inj (Except.ok.inj h)
    exact ⟨rfl, rfl⟩
  | cons token tokens ih =>
    rw [parseTokens] at h
    split at h
    · split at h
      · cases h
      · rename_i relation behind _ _ hrelation
        obtain ⟨⟨subFields, subEmbed⟩, hsub, h⟩ := Result.bind_eq_ok.mp h
        obtain ⟨⟨restFields, restEmbedded⟩, hrest, h⟩ := Result.bind_eq_ok.mp h
        obtain ⟨rfl, rfl⟩ := Prod.mk.inj (Except.ok.inj h)
        obtain ⟨hfields, hchildren⟩ := hinner _ _ _ hsub
        obtain ⟨htail, hembedded⟩ := ih hrest
        have hvalid : isValidIdentifier relation := by simpa using hrelation
        exact ⟨htail, by simp [areAccepted, isAccepted, hvalid, hfields, hchildren, hembedded]⟩
    · split at h
      · cases h
      · rename_i hfield
        obtain ⟨⟨restFields, restEmbedded⟩, hrest, h⟩ := Result.bind_eq_ok.mp h
        obtain ⟨rfl, rfl⟩ := Prod.mk.inj (Except.ok.inj h)
        obtain ⟨htail, hembedded⟩ := ih hrest
        have hvalid : isField token := by
          by_cases hstar : token = "*"
          · simp [isField, hstar]
          · simpa [isField, hstar] using hfield
        exact ⟨by simp [hvalid, htail], hembedded⟩

theorem parseSelectFrom_accepted {fuel : ℕ} {raw : String} {fields : List String}
    {embedded : List EmbeddedField} (h : parseSelectFrom fuel raw = .ok (fields, embedded)) :
    fields.all isField ∧ areAccepted embedded := by
  induction fuel generalizing raw fields embedded with
  | zero => cases h
  | succ fuel ih =>
    rw [parseSelectFrom] at h
    split at h
    · obtain ⟨rfl, rfl⟩ := Prod.mk.inj (Except.ok.inj h)
      exact ⟨by simp [isField], rfl⟩
    · exact parseTokens_accepted (fun _ _ _ => ih) h

theorem parseOrder_accepted {raw : String} {orders : List OrderBy}
    (h : parseOrder raw = .ok orders) :
    ∀ order ∈ orders, isValidIdentifier order.column := by
  refine Result.forall_mem_of_mapM ?_ h
  intro part order hpart
  unfold parseOrderPart at hpart
  -- no modifier changes the column
  have hcolumn : ∀ (modifiers : List String) (order : OrderBy),
      (modifiers.foldl applyModifier order).column = order.column := by
    intro modifiers
    induction modifiers with
    | nil => simp
    | cons modifier modifiers ih =>
      intro order
      rw [List.foldl_cons, ih]
      unfold applyModifier
      simp only
      split_ifs <;> rfl
  simp only at hpart
  split at hpart
  · cases hpart
  · rename_i hvalid
    cases hpart
    rw [hcolumn]
    simpa using hvalid

theorem listParts_spec (value opening closing : String) :
    listParts value opening closing ≠ [] ∧
      ∀ part ∈ listParts value opening closing, ',' ∉ part.toList := by
  refine ⟨by simp [listParts, Strings.split_ne_nil], fun part hpart hcomma => ?_⟩
  obtain ⟨word, hword, rfl⟩ := List.mem_map.mp hpart
  obtain ⟨runes, hrunes, rfl⟩ := List.mem_map.mp hword
  -- what the blanks are taken from holds the runes that are left
  obtain ⟨before, behind, -, -, heq⟩ := Strings.toList_eq_trimSpace (String.ofList runes)
  have hmem : ',' ∈ runes := by
    rw [← String.toList_ofList (l := runes), heq]
    exact List.mem_append_right _ (List.mem_append_left _ hcomma)
  exact Strings.not_mem_of_mem_splitRunes ',' _ runes hrunes hmem

theorem parsed_of_parseFilter {column raw : String} {filterOp : FilterOp}
    (h : parseFilter column raw = .ok filterOp) : filterOp.Parsed := by
  unfold parseFilter at h
  simp only at h
  split at h
  · cases h
  rename_i hvalid
  have hvalid : isValidIdentifier column := by simpa using hvalid
  split at h
  · cases h
  split at h
  · rename_i op hop
    cases h
    refine ⟨hvalid, fun hlist => ?_, fun _ => rfl⟩
    -- neither operator on lists is among the comparisons
    have hmem := List.mem_of_find?_eq_some hop
    rcases hlist with hlist | hlist
    · rw [show op = .isIn from hlist] at hmem
      simp at hmem
    · rw [show op = .cs from hlist] at hmem
      simp at hmem
  split_ifs at h
  all_goals cases h
  · exact ⟨hvalid, nofun, fun _ => rfl⟩
  · refine ⟨hvalid, fun _ => ?_, fun hnot => absurd (.inl rfl) hnot⟩
    dsimp only
    exact listParts_spec _ _ _
  · refine ⟨hvalid, fun _ => ?_, fun hnot => absurd (.inr rfl) hnot⟩
    dsimp only
    exact listParts_spec _ _ _
  · exact ⟨hvalid, nofun, fun _ => rfl⟩

theorem applyParam_accepted {maxLimit : ℤ} {queryParams next : QueryParams} {rawKey : String}
    {valueList : List String} (haccepted : queryParams.Accepted)
    (h : applyParam maxLimit queryParams rawKey valueList = .ok next) : next.Accepted := by
  unfold applyParam at h
  cases valueList with
  | nil =>
    cases h
    exact { haccepted with }
  | cons =>
    simp only at h
    -- only `select`, `order` and the filters touch what is asked for here
    split at h
    · obtain ⟨⟨fields, embedded⟩, hselect, h⟩ := Result.bind_eq_ok.mp h
      cases h
      have hparsed := parseSelectFrom_accepted (Result.mapError_eq_ok.mp hselect)
      exact { haccepted with fields := hparsed.1, embedded := hparsed.2 }
    split at h
    · obtain ⟨orders, horder, h⟩ := Result.bind_eq_ok.mp h
      cases h
      exact { haccepted with orders := parseOrder_accepted (Result.mapError_eq_ok.mp horder) }
    split at h
    · split at h
      · cases h
      · cases h
        exact { haccepted with }
    split at h
    · split at h
      · cases h
      · cases h
        exact { haccepted with }
    split at h
    · cases h
      split
      · exact { haccepted with }
      · exact { haccepted with }
    split at h
    · split at h
      · cases h
      · cases h
        exact { haccepted with }
    split at h
    · cases h
      exact { haccepted with }
    · obtain ⟨filters, hparsed, h⟩ := Result.bind_eq_ok.mp h
      cases h
      refine { haccepted with filters := ?_ }
      intro filterOp hmem
      rcases List.mem_append.mp hmem with hmem | hmem
      · exact haccepted.filters filterOp hmem
      · exact Result.forall_mem_of_mapM (fun _ _ => parsed_of_parseFilter) hparsed filterOp hmem

/-- Accepted parameters hold identifiers only. -/
theorem parseQueryParams_accepted {urlValues : GoMap (List String)} {defaultLimit maxLimit : ℤ}
    {queryParams : QueryParams}
    (h : parseQueryParams urlValues defaultLimit maxLimit = .ok queryParams) :
    queryParams.Accepted := by
  refine Result.foldlM_invariant ?_ ?_ h
  · intro queryParams e next haccepted hnext
    exact applyParam_accepted haccepted hnext
  · exact ⟨rfl, rfl, by simp, by simp⟩

end Layr.Rest
