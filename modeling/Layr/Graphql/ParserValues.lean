import Layr.Graphql.Printer

/-!
# Reading printed values back

Each parsing function reads exactly the text its printer wrote and leaves the cursor right behind
it: `Reads result value rest` says that a parse succeeded with `value` and left `rest`. What may
follow a printed part is restricted only by its first rune, which must not continue a name or a
number. The fuel needed by a part is bounded by the length of its text.
-/

namespace Layr.Graphql

open Go

namespace Parser

variable {c : Char} {consumed rest runes rest' : List Char} {items : List Value} {name : String}
  {value : Value} {fuel : ℕ}

/-! ## Runes -/

/-- A rune that ends the skipping of blanks and comments. -/
def isStop (c : Char) : Bool := !(Unicode.isSpace c || c = ',') && c ≠ '#'

theorem toNat_of_isAlpha (h : c.isAlpha) :
    (65 ≤ c.toNat ∧ c.toNat ≤ 90) ∨ (97 ≤ c.toNat ∧ c.toNat ≤ 122) := by
  rcases Bool.or_eq_true_iff.mp h with hupper | hlower
  · have hrange : c.val ≥ 65 ∧ c.val ≤ 90 := of_decide_eq_true hupper
    exact .inl ⟨UInt32.le_iff_toNat_le.mp hrange.1, UInt32.le_iff_toNat_le.mp hrange.2⟩
  · have hrange : (decide (c.val ≥ 97) && decide (c.val ≤ 122)) := hlower
    rw [Bool.and_eq_true, decide_eq_true_eq, decide_eq_true_eq] at hrange
    exact .inr ⟨UInt32.le_iff_toNat_le.mp hrange.1, UInt32.le_iff_toNat_le.mp hrange.2⟩

theorem toNat_of_isDigit (h : c.isDigit) : 48 ≤ c.toNat ∧ c.toNat ≤ 57 := by
  simp only [Char.isDigit, Bool.and_eq_true, decide_eq_true_eq, ge_iff_le,
    UInt32.le_iff_toNat_le] at h
  exact h

theorem isStop_of_toNat (hrange : 48 ≤ c.toNat ∧ c.toNat ≤ 122) : isStop c := by
  have hcomma : c ≠ ',' := by
    rintro rfl
    exact absurd hrange (by decide)
  have hhash : c ≠ '#' := by
    rintro rfl
    exact absurd hrange (by decide)
  have hspace : Unicode.isSpace c = false := by
    unfold Unicode.isSpace
    rw [if_pos (by omega)]
    simp only [Unicode.inRanges, List.any_cons, List.any_nil, Bool.or_false, Bool.or_eq_false_iff,
      Bool.and_eq_false_iff, decide_eq_false_iff_not]
    omega
  simp [isStop, hcomma, hhash, hspace]

theorem isIdentRune_of_isNameRune (h : isNameRune c) : isIdentRune c := by
  unfold isNameRune Char.isAlphanum at h
  simp only [Bool.or_eq_true, decide_eq_true_eq] at h
  rcases h with (halpha | hdigit) | rfl
  · have hrange := toNat_of_isAlpha halpha
    have hletter : Unicode.isLetter c := by
      unfold Unicode.isLetter
      rw [if_pos (by omega)]
      simp only [Unicode.inRanges, Unicode.latin1Letters, List.any_cons, Bool.or_eq_true,
        Bool.and_eq_true, decide_eq_true_eq]
      omega
    simp [isIdentRune, hletter]
  · have hrange := toNat_of_isDigit hdigit
    have hdigit' : Unicode.isDigit c := by
      unfold Unicode.isDigit
      rw [if_pos (by omega)]
      simp [Unicode.inRanges, hrange]
    simp [isIdentRune, hdigit']
  · decide

/-- What is known of the first rune of a name. -/
theorem isStop_of_isNameStart (h : isNameStart c) : isStop c := by
  unfold isNameStart at h
  rcases (Bool.or_eq_true _ _).mp h with halpha | hunderscore
  · have hrange := toNat_of_isAlpha halpha
    exact isStop_of_toNat (by omega)
  · rw [of_decide_eq_true hunderscore]
    decide

theorem isNameRune_of_isNameStart (h : isNameStart c) : isNameRune c := by
  unfold isNameStart at h
  unfold isNameRune Char.isAlphanum
  rcases (Bool.or_eq_true _ _).mp h with halpha | hunderscore
  · simp [halpha]
  · simp [hunderscore]

/-- A rune outside the names starts none. -/
theorem ne_of_isNameStart {x : Char} (h : isNameStart c) (hx : isNameStart x = false) :
    c ≠ x := by
  rintro rfl
  rw [hx] at h
  cases h

/-- A name is one rune that may start it and runes that may continue it. -/
theorem isName_cases (h : isName name) :
    ∃ first runes, name.toList = first :: runes ∧ isNameStart first ∧
      ∀ c ∈ name.toList, isIdentRune c := by
  unfold isName at h
  cases hlist : name.toList with
  | nil =>
    rw [hlist] at h
    cases h
  | cons first runes =>
    rw [hlist] at h
    simp only [Bool.and_eq_true, List.all_eq_true] at h
    refine ⟨first, runes, rfl, h.1, ?_⟩
    intro c hc
    rcases List.mem_cons.mp hc with rfl | hc
    · exact isIdentRune_of_isNameRune (isNameRune_of_isNameStart h.1)
    · exact isIdentRune_of_isNameRune (h.2 c hc)

theorem isName_ne_empty (h : isName name) : name ≠ "" := by
  rintro rfl
  exact absurd h (by decide)

/-! ## Cursor movements -/

/-- What follows does not continue a name or a number. -/
def Ends (rest : List Char) : Prop :=
  ∀ c, rest.head? = some c → isIdentRune c = false ∧ isNumberRune c = false

theorem ends_cons (rest : List Char) (h : isIdentRune c = false ∧ isNumberRune c = false) :
    Ends (c :: rest) := by
  intro c' hc'
  cases hc'
  exact h

theorem skip_of_isStop (h : isStop c) :
    skipWhitespaceAndComments ⟨consumed, c :: rest⟩ = ⟨consumed, c :: rest⟩ := by
  simp only [isStop, Bool.and_eq_true, Bool.not_eq_true', decide_eq_true_eq] at h
  have hhash : ¬c = '#' := by simpa using h.2
  simp [skipWhitespaceAndComments, skipFrom, h.1, hhash]

theorem skip_blank (h : Unicode.isSpace c || c = ',') :
    skipWhitespaceAndComments ⟨consumed, c :: rest⟩ =
      skipWhitespaceAndComments ⟨c :: consumed, rest⟩ := by
  show skipFrom false consumed (c :: rest) = skipFrom false (c :: consumed) rest
  rw [skipFrom, if_neg (by decide), if_pos h]

theorem takeWhile_append_ends {p : Char → Bool} (hrunes : ∀ c ∈ runes, p c)
    (hrest : ∀ c, rest.head? = some c → p c = false) :
    (runes ++ rest).takeWhile p = runes ∧ (runes ++ rest).dropWhile p = rest := by
  have hhead : rest.takeWhile p = [] ∧ rest.dropWhile p = rest := by
    cases rest with
    | nil => simp
    | cons c rest => simp [hrest c rfl]
  rw [List.takeWhile_append_of_pos hrunes, List.dropWhile_append_of_pos hrunes, hhead.1, hhead.2,
    List.append_nil]
  exact ⟨rfl, rfl⟩

/-- A name is read up to its end. -/
theorem readIdent_name (consumed : List Char) (h : isName name) (hrest : Ends rest) :
    ∃ consumed', readIdent ⟨consumed, name.toList ++ rest⟩ = (name, ⟨consumed', rest⟩) := by
  obtain ⟨-, -, -, -, hrunes⟩ := isName_cases h
  obtain ⟨htake, hdrop⟩ := takeWhile_append_ends hrunes fun c hc => (hrest c hc).1
  refine ⟨name.toList.reverse ++ consumed, ?_⟩
  simp [readIdent, takeRunes, htake, hdrop]

theorem skip_name (h : isName name) :
    skipWhitespaceAndComments ⟨consumed, name.toList ++ rest⟩ =
      ⟨consumed, name.toList ++ rest⟩ := by
  obtain ⟨first, runes, hlist, hstart, -⟩ := isName_cases h
  rw [hlist, List.cons_append]
  exact skip_of_isStop (isStop_of_isNameStart hstart)

/-- A name does not begin like anything else. -/
theorem peekChar_name (consumed rest : List Char) {x : Char} (h : isName name)
    (hx : isNameStart x = false) : peekChar ⟨consumed, name.toList ++ rest⟩ ≠ x := by
  obtain ⟨first, runes, hlist, hstart, -⟩ := isName_cases h
  rw [hlist]
  exact ne_of_isNameStart hstart hx

theorem not_closed_name (consumed rest : List Char) {close : Char} (h : isName name)
    (hclose : isNameStart close = false) :
    ¬(isEOF ⟨consumed, name.toList ++ rest⟩ ||
      decide (peekChar ⟨consumed, name.toList ++ rest⟩ = close)) := by
  obtain ⟨first, runes, hlist, -, -⟩ := isName_cases h
  rw [decide_eq_false (peekChar_name consumed rest h hclose), hlist]
  exact Bool.false_ne_true

/-- A parse that succeeded with `value` and left `rest`. -/
def Reads {α : Type} (result : Except ParseError (α × Parser)) (value : α) (rest : List Char) :
    Prop :=
  ∃ consumed, result = .ok (value, ⟨consumed, rest⟩)

theorem Reads.bind {α β : Type} {result : Except ParseError (α × Parser)} {value : α} {value' : β}
    {f : α × Parser → Except ParseError (β × Parser)} (h : Reads result value rest)
    (hf : ∀ consumed, Reads (f (value, ⟨consumed, rest⟩)) value' rest') :
    Reads (result >>= f) value' rest' := by
  obtain ⟨consumed, rfl⟩ := h
  exact hf consumed

/-- Skipping blanks and comments takes the cursor from `rest` to `rest'`. -/
def Skips (rest rest' : List Char) : Prop :=
  ∀ consumed, ∃ consumed', skipWhitespaceAndComments ⟨consumed, rest⟩ = ⟨consumed', rest'⟩

theorem skips_of_isStop (h : isStop c) (rest : List Char) : Skips (c :: rest) (c :: rest) :=
  fun consumed => ⟨consumed, skip_of_isStop h⟩

theorem Skips.reads {α : Type} {f : Parser → Except ParseError (α × Parser)} {value : α}
    (h : Skips rest runes) (hf : ∀ consumed, Reads (f ⟨consumed, runes⟩) value rest') :
    Reads (f (skipWhitespaceAndComments ⟨consumed, rest⟩)) value rest' := by
  obtain ⟨consumed', hskip⟩ := h consumed
  rw [hskip]
  exact hf consumed'

/-! ## Lists of parts -/

/-- A list that is printed part by part, with a blank between two parts. -/
structure Listing (α : Type) where
  part : α → List Char
  parts : List α → List Char
  more : List α → List Char
  blank : Char
  parts_nil : parts [] = []
  parts_cons : ∀ x xs, parts (x :: xs) = part x ++ more xs
  more_nil : more [] = []
  more_cons : ∀ x xs, more (x :: xs) = blank :: parts (x :: xs)
  isBlank : (Unicode.isSpace blank || blank = ',')
  ends : isIdentRune blank = false ∧ isNumberRune blank = false

namespace Listing

variable {α : Type} {l : Listing α} {xs : List α} {close : Char}

/-- No part starts with a rune that is skipped. -/
def Stops (l : Listing α) (xs : List α) : Prop :=
  ∀ x ∈ xs, ∃ first runes, l.part x = first :: runes ∧ isStop first

theorem ends_more (xs : List α) (hclose : isIdentRune close = false ∧ isNumberRune close = false)
    (rest : List Char) : Ends (l.more xs ++ close :: rest) := by
  cases xs with
  | nil =>
    rw [l.more_nil]
    exact ends_cons _ hclose
  | cons x xs =>
    rw [l.more_cons]
    exact ends_cons _ l.ends

section

variable (h : l.Stops xs) (hclose : isStop close) (rest : List Char)

include h hclose

theorem skips_parts : Skips (l.parts xs ++ close :: rest) (l.parts xs ++ close :: rest) := by
  cases xs with
  | nil =>
    rw [l.parts_nil]
    exact skips_of_isStop hclose rest
  | cons x xs =>
    obtain ⟨first, runes, hpart, hstop⟩ := h x List.mem_cons_self
    rw [l.parts_cons, hpart]
    exact skips_of_isStop hstop _

/-- The blank before the other parts is skipped. -/
theorem skips_more : Skips (l.more xs ++ close :: rest) (l.parts xs ++ close :: rest) := by
  intro consumed
  have hparts := skips_parts h hclose rest
  cases xs with
  | nil =>
    rw [l.more_nil, ← l.parts_nil]
    exact hparts consumed
  | cons x xs =>
    rw [l.more_cons, List.cons_append, skip_blank l.isBlank]
    exact hparts _

end

/-- A loop that reads one part after the other gives the list back. -/
theorem reads {parse : ℕ → List α → Parser → Except ParseError (List α × Parser)} {acc all : List α}
    (hstops : l.Stops all)
    (hend : ∀ fuel consumed, Reads (parse (fuel + 1) all ⟨consumed, close :: rest⟩) all rest')
    (hround : ∀ {acc x xs fuel consumed}, acc ++ x :: xs = all → l.Stops xs →
      (l.part x).length < fuel →
      (∀ consumed, Reads (parse fuel (acc ++ [x]) ⟨consumed, l.parts xs ++ close :: rest⟩) all
        rest') →
      Reads (parse (fuel + 1) acc ⟨consumed, l.part x ++ (l.more xs ++ close :: rest)⟩) all rest')
    (hall : acc ++ xs = all) (hfuel : (l.parts xs).length + 1 < fuel) :
    Reads (parse fuel acc ⟨consumed, l.parts xs ++ close :: rest⟩) all rest' := by
  obtain ⟨fuel, rfl⟩ : ∃ n, fuel = n + 1 := ⟨fuel - 1, by omega⟩
  induction xs generalizing acc fuel consumed with
  | nil =>
    rw [List.append_nil] at hall
    rw [l.parts_nil, hall]
    exact hend fuel consumed
  | cons x xs ih =>
    obtain ⟨first, runes, hpart, -⟩ := hstops x (by simp [← hall])
    have hpos : 0 < (l.part x).length := by simp [hpart]
    have hle : (l.parts xs).length ≤ (l.more xs).length := by
      cases xs with
      | nil => simp [l.parts_nil]
      | cons => simp [l.more_cons]
    rw [l.parts_cons, List.length_append] at hfuel
    obtain ⟨fuel, rfl⟩ : ∃ n, fuel = n + 1 := ⟨fuel - 1, by omega⟩
    rw [l.parts_cons, List.append_assoc]
    exact hround hall (fun y hy => hstops y (by simp [← hall, hy])) (by omega) fun consumed =>
      ih (by simp [← hall]) fuel (by omega)

end Listing

/-! ## Literals -/

theorem readStringFrom_escapeRunes (consumed builder runes rest : List Char) :
    Reads (readStringFrom consumed builder (escapeRunes runes ++ '"' :: rest))
      (String.ofList (builder.reverse ++ runes)) rest := by
  induction runes generalizing consumed builder with
  | nil => exact ⟨'"' :: consumed, by simp [escapeRunes, readStringFrom]⟩
  | cons c runes ih =>
    have hbuilder : builder.reverse ++ c :: runes = (c :: builder).reverse ++ runes := by simp
    rw [escapeRunes, hbuilder]
    split
    · rename_i hc
      -- an escaped quote or backslash stands for itself
      have hunescape : unescape c = c := by
        rcases hc with rfl | rfl <;> rfl
      have hstep := ih (c :: '\\' :: consumed) (c :: builder)
      rw [List.cons_append, List.cons_append, readStringFrom, hunescape]
      exact hstep
    · rename_i hc
      rw [not_or] at hc
      have hstep := ih (c :: consumed) (c :: builder)
      rw [List.cons_append, readStringFrom_plain hc.1 hc.2]
      exact hstep

/-- The runes of a printed number, and what its first rune is. -/
theorem formatInt_runes (i : ℤ) :
    (∀ c ∈ Strconv.formatInt i, isNumberRune c) ∧ '.' ∉ Strconv.formatInt i := by
  obtain ⟨-, -, -, -, hrunes⟩ := Strconv.formatInt_cases i
  constructor
  · intro c hc
    rcases hrunes c hc with hdigit | rfl
    · simp [isNumberRune, hdigit]
    · decide
  · intro hpoint
    rcases hrunes '.' hpoint with hdigit | hminus
    · exact absurd hdigit (by decide)
    · exact absurd hminus (by decide)

/-- What is known of the first rune of a number. -/
theorem isStop_of_numberStart (h : c.isDigit ∨ c = '-') : isStop c := by
  rcases h with hdigit | rfl
  · have hrange := toNat_of_isDigit hdigit
    exact isStop_of_toNat (by omega)
  · decide

theorem ne_of_numberStart {x : Char} (h : c.isDigit ∨ c = '-') (hx : x.isDigit = false)
    (hminus : x ≠ '-') : c ≠ x := by
  rcases h with hdigit | rfl
  · exact Strconv.ne_of_isDigit hdigit hx
  · exact hminus.symm

/-- Every 64-bit integer is read back from its decimal digits. -/
theorem readNumber_formatInt {i : ℤ} (consumed : List Char) (h : -2 ^ 63 ≤ i ∧ i < 2 ^ 63)
    (hrest : Ends rest) :
    Reads (readNumber ⟨consumed, Strconv.formatInt i ++ rest⟩) (.int i) rest := by
  obtain ⟨hrunes, hpoint⟩ := formatInt_runes i
  obtain ⟨htake, hdrop⟩ := takeWhile_append_ends hrunes fun c hc => (hrest c hc).2
  refine ⟨(Strconv.formatInt i).reverse ++ consumed, ?_⟩
  simp [readNumber, takeRunes, htake, hdrop, hpoint, Strconv.parseInt_formatInt h]

/-! ## Values -/

/-- A printed value starts with a rune that is skipped by nothing and closes no bracket. -/
theorem printValue_cases (h : isPrintable value) :
    ∃ first runes, printValue value = first :: runes ∧ isStop first ∧ first ≠ ']' := by
  cases value with
  | null => exact ⟨'n', ['u', 'l', 'l'], rfl, by decide, by decide⟩
  | bool b =>
    cases b with
    | true => exact ⟨'t', ['r', 'u', 'e'], rfl, by decide, by decide⟩
    | false => exact ⟨'f', ['a', 'l', 's', 'e'], rfl, by decide, by decide⟩
  | int i =>
    obtain ⟨first, runes, hlist, hfirst, -⟩ := Strconv.formatInt_cases i
    exact ⟨first, runes, hlist, isStop_of_numberStart hfirst,
      ne_of_numberStart hfirst (by decide) (by decide)⟩
  | float f => cases h
  | str text => exact ⟨'"', escapeRunes text.toList ++ ['"'], rfl, by decide, by decide⟩
  | list items => exact ⟨'[', printItems items ++ [']'], rfl, by decide, by decide⟩
  | obj fields => exact ⟨'{', printEntries fields ++ ['}'], rfl, by decide, by decide⟩

variable {vars : GoMap Value}

/-- A word is read as the constant it names, or as itself. -/
theorem parseValue_word (word : String) (h : isName word) (hrest : Ends rest) :
    Reads (parseValue vars (fuel + 1) ⟨consumed, word.toList ++ rest⟩)
      (if word = "true" then .bool true else if word = "false" then .bool false
        else if word = "null" then .null else .str word) rest := by
  obtain ⟨consumed', hread⟩ := readIdent_name consumed h hrest
  have hpeek : ∀ {x : Char}, isNameStart x = false →
      peekChar ⟨consumed, word.toList ++ rest⟩ ≠ x := fun hx => peekChar_name consumed rest h hx
  have hdigit : (peekChar ⟨consumed, word.toList ++ rest⟩).isDigit = false := by
    obtain ⟨first, runes, hlist, hstart, -⟩ := isName_cases h
    rw [hlist]
    show first.isDigit = false
    by_contra hd
    have hrange := toNat_of_isDigit (by simpa using hd)
    rcases (Bool.or_eq_true _ _).mp hstart with halpha | hunderscore
    · have := toNat_of_isAlpha halpha
      omega
    · rw [of_decide_eq_true hunderscore] at hrange
      exact absurd hrange (by decide)
  have hnumber : ¬((peekChar ⟨consumed, word.toList ++ rest⟩).isDigit ||
      decide (peekChar ⟨consumed, word.toList ++ rest⟩ = '-')) := by
    rw [hdigit, Bool.false_or, decide_eq_true_eq]
    exact hpeek (by decide)
  refine ⟨consumed', ?_⟩
  simp only [parseValue, skip_name h, if_neg (hpeek (x := '$') (by decide)),
    if_neg (hpeek (x := '"') (by decide)), if_neg (hpeek (x := '{') (by decide)),
    if_neg (hpeek (x := '[') (by decide)), if_neg hnumber, hread, if_neg (isName_ne_empty h)]
  split_ifs <;> rfl

theorem parseValue_string (text : String) :
    Reads (parseValue vars (fuel + 1) ⟨consumed, '"' :: escapeRunes text.toList ++ '"' :: rest⟩)
      (.str text) rest := by
  have hskip : skipWhitespaceAndComments
      ⟨consumed, '"' :: (escapeRunes text.toList ++ '"' :: rest)⟩ =
        ⟨consumed, '"' :: (escapeRunes text.toList ++ '"' :: rest)⟩ := skip_of_isStop (by decide)
  obtain ⟨consumed', hread⟩ :=
    readStringFrom_escapeRunes ('"' :: consumed) [] text.toList rest
  refine ⟨consumed', ?_⟩
  rw [List.cons_append, parseValue, hskip]
  show ((readStringFrom ('"' :: consumed) [] (escapeRunes text.toList ++ '"' :: rest)) >>=
    fun result => .ok (Value.str result.1, result.2)) = _
  rw [hread]
  simp [Except.bind, bind]

theorem parseValue_int {i : ℤ} (h : -2 ^ 63 ≤ i ∧ i < 2 ^ 63) (hrest : Ends rest) :
    Reads (parseValue vars (fuel + 1) ⟨consumed, Strconv.formatInt i ++ rest⟩) (.int i) rest := by
  obtain ⟨first, runes, hlist, hfirst, -⟩ := Strconv.formatInt_cases i
  have hnumber := readNumber_formatInt consumed h hrest
  have hne : ∀ {x : Char}, x.isDigit = false → x ≠ '-' → first ≠ x := ne_of_numberStart hfirst
  have hdigit : (first.isDigit || first = '-') := by
    rcases hfirst with hdigit | rfl
    · simp [hdigit]
    · decide
  rw [hlist, List.cons_append] at hnumber ⊢
  have hpeek : peekChar ⟨consumed, first :: (runes ++ rest)⟩ = first := rfl
  simp only [parseValue, skip_of_isStop (isStop_of_numberStart hfirst), hpeek, hdigit,
    if_neg (hne (x := '$') (by decide) (by decide)),
    if_neg (hne (x := '"') (by decide) (by decide)),
    if_neg (hne (x := '{') (by decide) (by decide)),
    if_neg (hne (x := '[') (by decide) (by decide)),
    if_true]
  exact hnumber

/-- An opening bracket starts the loop over the elements. -/
theorem parseValue_bracket
    (h : Reads (parseArray vars fuel [] ⟨'[' :: consumed, rest⟩) items rest') :
    Reads (parseValue vars (fuel + 1) ⟨consumed, '[' :: rest⟩) (.list items) rest' := by
  obtain ⟨consumed', h⟩ := h
  refine ⟨consumed', ?_⟩
  rw [parseValue, skip_of_isStop (by decide)]
  show (parseArray vars fuel [] ⟨'[' :: consumed, rest⟩ >>=
    fun result => .ok (Value.list result.1, result.2)) = _
  rw [h]
  rfl

/-- An opening brace starts the loop over the fields. -/
theorem parseValue_brace {fields : GoMap Value}
    (h : Reads (parseObject vars fuel [] ⟨'{' :: consumed, rest⟩) fields rest') :
    Reads (parseValue vars (fuel + 1) ⟨consumed, '{' :: rest⟩) (.obj fields) rest' := by
  obtain ⟨consumed', h⟩ := h
  refine ⟨consumed', ?_⟩
  rw [parseValue, skip_of_isStop (by decide)]
  show (parseObject vars fuel [] ⟨'{' :: consumed, rest⟩ >>=
    fun result => .ok (Value.obj result.1, result.2)) = _
  rw [h]
  rfl

variable (vars) in
/-- A printed value is read back. -/
def ReadsBack (value : Value) : Prop :=
  ∀ {fuel : ℕ} {consumed rest : List Char}, (printValue value).length < fuel → Ends rest →
    Reads (parseValue vars fuel ⟨consumed, printValue value ++ rest⟩) value rest

/-- The elements of a list. -/
def itemListing : Listing Value where
  part := printValue
  parts := printItems
  more := printMoreItems
  blank := ','
  parts_nil := by rw [printItems]
  parts_cons _ _ := by rw [printItems]
  more_nil := by rw [printMoreItems]
  more_cons _ _ := by rw [printItems, printMoreItems]; rfl
  isBlank := by decide
  ends := by decide

/-- The entries of an object or an argument list. -/
def entryListing : Listing (String × Value) where
  part entry := entry.1.toList ++ ':' :: printValue entry.2
  parts := printEntries
  more := printMoreEntries
  blank := ','
  parts_nil := by rw [printEntries]
  parts_cons _ _ := by rw [printEntries]
  more_nil := by rw [printMoreEntries]
  more_cons _ _ := by rw [printEntries, printMoreEntries]; rfl
  isBlank := by decide
  ends := by decide

/-- The elements of a printed list are read back. -/
theorem parseArray_printItems (h : ∀ item ∈ items, isPrintable item ∧ ReadsBack vars item)
    (hfuel : (printItems items).length + 1 < fuel) :
    Reads (parseArray vars fuel [] ⟨consumed, printItems items ++ ']' :: rest⟩) items rest := by
  have hstops : itemListing.Stops items := by
    intro item hmem
    obtain ⟨first, runes, hlist, hstop, -⟩ := printValue_cases (h item hmem).1
    exact ⟨first, runes, hlist, hstop⟩
  refine itemListing.reads hstops (fun fuel consumed => ⟨']' :: consumed, by
    simp [parseArray, isEOF, peekChar, advance]⟩) ?_ rfl hfuel
  rintro acc item items fuel consumed rfl hstops hlength hmore
  obtain ⟨hprintable, hread⟩ := h item (by simp)
  obtain ⟨first, runes, hlist, hstop, hclose⟩ := printValue_cases hprintable
  have hitem : Reads (parseValue vars fuel ⟨consumed, printValue item ++
      (printMoreItems items ++ ']' :: rest)⟩) item _ :=
    hread hlength (itemListing.ends_more items (by decide) rest)
  change Reads (parseArray vars _ _ ⟨_, printValue item ++ (printMoreItems items ++ _)⟩) _ _
  rw [hlist, List.cons_append] at hitem ⊢
  have hopen : ¬(isEOF ⟨consumed, first :: (runes ++ (printMoreItems items ++ ']' :: rest))⟩ ||
      decide (peekChar ⟨consumed, first :: (runes ++ (printMoreItems items ++ ']' :: rest))⟩ =
        ']')) := by
    simpa [isEOF, peekChar] using hclose
  rw [parseArray, if_neg hopen, skip_of_isStop hstop]
  exact hitem.bind fun consumed => (Listing.skips_more hstops (by decide) rest).reads hmore

section entries

variable {parse : ℕ → GoMap Value → Parser → Except ParseError (GoMap Value × Parser)}
  {entries : List (String × Value)}

variable (vars parse) in
/-- One round of a loop over entries reads a name, a colon and a value, and skips to the next. -/
def ReadsEntries : Prop :=
  ∀ {fuel : ℕ} {acc fields : GoMap Value} {key : String} {value : Value}
    {consumed runes rest rest' : List Char}, isName key →
    (∀ consumed, skipWhitespaceAndComments ⟨consumed, runes⟩ = ⟨consumed, runes⟩) →
    (∀ consumed, Reads (parseValue vars fuel ⟨consumed, runes⟩) value rest) →
    (∀ consumed, Reads (parse fuel (acc.set key value)
      (skipWhitespaceAndComments ⟨consumed, rest⟩)) fields rest') →
    Reads (parse (fuel + 1) acc ⟨consumed, key.toList ++ ':' :: runes⟩) fields rest'

theorem readsEntries_parseObject : ReadsEntries vars (parseObject vars) := by
  intro fuel acc fields key value consumed runes rest rest' hkey _ hvalue hfields
  obtain ⟨consumed', hread⟩ := readIdent_name consumed hkey
    (ends_cons runes (c := ':') (by decide))
  rw [parseObject, if_neg (not_closed_name _ _ hkey (by decide)), skip_name hkey, hread]
  simp only [skip_of_isStop (c := ':') (by decide)]
  rw [if_neg (by simp [peekChar])]
  exact (hvalue (':' :: consumed')).bind hfields

theorem nodup_of_entriesPrintable (h : entriesPrintable entries) :
    (entries.map Prod.fst).Nodup := by
  induction entries with
  | nil => exact List.nodup_nil
  | cons entry entries ih =>
    simp only [entriesPrintable, Bool.and_eq_true, Bool.not_eq_true', List.any_eq_false,
      decide_eq_true_eq] at h
    refine List.nodup_cons.mpr ⟨fun hmem => ?_, ih h.2⟩
    obtain ⟨other, hother, heq⟩ := List.mem_map.mp hmem
    exact h.1.1.2 other hother heq

/-- The entries of a printed object or argument list are read back. -/
theorem ReadsEntries.reads {close : Char} (hparse : ReadsEntries vars parse)
    (hnodup : (entries.map Prod.fst).Nodup)
    (h : ∀ entry ∈ entries, isName entry.1 ∧ isPrintable entry.2 ∧
      ReadsBack vars entry.2)
    (hclose : isStop close ∧ isIdentRune close = false ∧ isNumberRune close = false)
    (hend : ∀ fuel consumed,
      Reads (parse (fuel + 1) entries ⟨consumed, close :: rest⟩) entries rest)
    (hfuel : (printEntries entries).length + 1 < fuel) :
    Reads (parse fuel [] ⟨consumed, printEntries entries ++ close :: rest⟩) entries rest := by
  have hstops : entryListing.Stops entries := by
    intro entry hmem
    obtain ⟨first, runes, hlist, hstart, -⟩ := isName_cases (h entry hmem).1
    exact ⟨first, _, congrArg (· ++ _) hlist, isStop_of_isNameStart hstart⟩
  refine entryListing.reads hstops hend ?_ rfl hfuel
  rintro acc ⟨key, value⟩ entries fuel consumed rfl hstops hlength hmore
  obtain ⟨hkey, hprintable, hread⟩ := h (key, value) (by simp)
  obtain ⟨first, runes, hlist, hstop, -⟩ := printValue_cases hprintable
  have hset : GoMap.set key value acc = acc ++ [(key, value)] := by
    refine GoMap.set_of_not_mem fun hmem => ?_
    rw [List.map_append, List.map_cons] at hnodup
    exact List.disjoint_of_nodup_append hnodup hmem List.mem_cons_self
  simp only [entryListing, List.length_append, List.length_cons] at hlength
  simp only [entryListing, List.append_assoc, List.cons_append]
  have hfits : (printValue value).length < fuel := by omega
  refine hparse hkey (fun consumed => ?_) (fun consumed => hread hfits
    (entryListing.ends_more entries hclose.2 rest)) fun consumed => ?_
  · rw [hlist]
    exact skip_of_isStop hstop
  · rw [hset]
    exact (Listing.skips_more hstops hclose.1 rest).reads hmore

end entries

mutual

/-- By recursion on the value; the fuel is that of the printed text. -/
theorem parseValue_printValue : ∀ {value : Value}, isPrintable value → ReadsBack vars value
  | value, h, 0, consumed, rest, hfuel, hrest => absurd hfuel (by omega)
  | .null, h, fuel + 1, consumed, rest, hfuel, hrest =>
    parseValue_word "null" (by decide) hrest
  | .bool true, h, fuel + 1, consumed, rest, hfuel, hrest =>
    parseValue_word "true" (by decide) hrest
  | .bool false, h, fuel + 1, consumed, rest, hfuel, hrest =>
    parseValue_word "false" (by decide) hrest
  | .int i, h, fuel + 1, consumed, rest, hfuel, hrest => by
    simp only [isPrintable, Bool.and_eq_true, decide_eq_true_eq] at h
    exact parseValue_int h hrest
  | .float f, h, fuel + 1, consumed, rest, hfuel, hrest => by cases h
  | .str text, h, fuel + 1, consumed, rest, hfuel, hrest => by
    rw [printValue, List.append_assoc]
    exact parseValue_string text
  | .list items, h, fuel + 1, consumed, rest, hfuel, hrest => by
    rw [printValue] at hfuel ⊢
    simp only [List.length_append, List.length_cons, List.length_nil] at hfuel
    rw [List.append_assoc]
    exact parseValue_bracket (parseArray_printItems (readsBack_of_items h) (by omega))
  | .obj fields, h, fuel + 1, consumed, rest, hfuel, hrest => by
    rw [printValue] at hfuel ⊢
    simp only [List.length_append, List.length_cons, List.length_nil] at hfuel
    rw [List.append_assoc]
    exact parseValue_brace (readsEntries_parseObject.reads (nodup_of_entriesPrintable h)
      (readsBack_of_entries h) (by decide) (fun fuel consumed => ⟨'}' :: consumed, by
        simp [parseObject, isEOF, peekChar, advance]⟩) (by omega))

theorem readsBack_of_items : ∀ {items : List Value}, arePrintable items →
    ∀ item ∈ items, isPrintable item ∧ ReadsBack vars item
  | [], _ => List.forall_mem_nil _
  | item :: items, h => by
    simp only [arePrintable, Bool.and_eq_true] at h
    exact List.forall_mem_cons.mpr ⟨⟨h.1, parseValue_printValue h.1⟩, readsBack_of_items h.2⟩

theorem readsBack_of_entries : ∀ {entries : List (String × Value)},
    entriesPrintable entries → ∀ entry ∈ entries,
      isName entry.1 ∧ isPrintable entry.2 ∧ ReadsBack vars entry.2
  | [], _ => List.forall_mem_nil _
  | (key, value) :: entries, h => by
    simp only [entriesPrintable, Bool.and_eq_true] at h
    exact List.forall_mem_cons.mpr ⟨⟨h.1.1.1, h.1.2, parseValue_printValue h.1.2⟩,
      readsBack_of_entries h.2⟩

end

end Parser

end Layr.Graphql
