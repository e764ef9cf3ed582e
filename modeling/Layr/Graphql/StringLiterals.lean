import Layr.Graphql.Parser

/-!
# String literals (`data/graphql/parser.go`, `readString`)

The grammar of GraphQL writes a character of a string as itself, by one of eight short escapes, or
by its code in four hexadecimal digits, two such codes standing for a character beyond the first
plane. `readString` has a case for every short escape and none for the codes, whose digits it takes
for characters.
-/

namespace Layr.Graphql

open Go

namespace StringLiteral

/-- The characters that stand for themselves. -/
def isPlain (c : Char) : Bool := c ∉ ['"', '\\', '\n', '\r']

/-- The characters behind the backslash of a short escape, with what they stand for. -/
def shortEscapes : List (Char × Char) :=
  [('"', '"'), ('\\', '\\'), ('/', '/'), ('b', Char.ofNat 8), ('f', Char.ofNat 12), ('n', '\n'),
    ('r', '\r'), ('t', '\t')]

/-- The digits of a code. -/
structure HexCode where
  digits : List Char
  four : digits.length = 4
  hex : digits.all fun c => c.isDigit || ('a' ≤ c && c ≤ 'f') || ('A' ≤ c && c ≤ 'F')

def hexValue (c : Char) : ℕ :=
  if c.isDigit then c.toNat - 48 else if 'a' ≤ c then c.toNat - 87 else c.toNat - 55

def HexCode.value (code : HexCode) : ℕ := code.digits.foldl (fun n c => 16 * n + hexValue c) 0

def HexCode.text (code : HexCode) : List Char := '\\' :: 'u' :: code.digits

/-- One character of a string, in one of the ways in which it may be written. -/
inductive Written
  | verbatim (c : Char) (plain : isPlain c)
  | short (escape : Char × Char) (known : escape ∈ shortEscapes)
  | unicode (code : HexCode) (scalar : code.value.isValidChar)
  | surrogates (high low : HexCode) (isHigh : high.value ∈ Set.Ico 0xd800 0xdc00)
      (isLow : low.value ∈ Set.Ico 0xdc00 0xe000)

namespace Written

def text : Written → List Char
  | verbatim c _ => [c]
  | short escape _ => ['\\', escape.1]
  | unicode code _ => code.text
  | surrogates high low _ _ => high.text ++ low.text

/-- The character that is written. -/
def char : Written → Char
  | verbatim c _ => c
  | short escape _ => escape.2
  | unicode code _ => Char.ofNat code.value
  | surrogates high low _ _ =>
    Char.ofNat (0x10000 + (high.value - 0xd800) * 0x400 + (low.value - 0xdc00))

/-- The character is written by its code. -/
def isCoded : Written → Bool
  | unicode _ _ | surrogates _ _ _ _ => true
  | _ => false

/-- What `readString` makes of it. -/
def taken : Written → List Char
  | unicode code _ => 'u' :: code.digits
  | surrogates high low _ _ => 'u' :: high.digits ++ 'u' :: low.digits
  | written => [written.char]

theorem taken_of_not_isCoded {written : Written} (h : written.isCoded = false) :
    written.taken = [written.char] := by
  cases written with
  | verbatim | short => rfl
  | unicode | surrogates => cases h

theorem one_le_length_taken (written : Written) : 1 ≤ written.taken.length := by
  cases written <;> simp [taken]

theorem one_lt_length_taken {written : Written} (h : written.isCoded) :
    1 < written.taken.length := by
  cases written with
  | verbatim | short => cases h
  | unicode code => simp [taken, code.four]
  | surrogates high low => simp [taken, high.four, low.four]

end Written

def text (literal : List Written) : List Char := literal.flatMap Written.text

/-- The string that is written. -/
def string (literal : List Written) : String := String.ofList (literal.map Written.char)

end StringLiteral

open StringLiteral

namespace Parser

variable {consumed builder rest : List Char}

theorem readStringFrom_plains (runes : List Char) (h : ∀ c ∈ runes, c ≠ '"' ∧ c ≠ '\\') :
    readStringFrom consumed builder (runes ++ rest) =
      readStringFrom (runes.reverse ++ consumed) (runes.reverse ++ builder) rest := by
  induction runes generalizing consumed builder with
  | nil => rfl
  | cons c runes ih =>
    have hc := h c List.mem_cons_self
    rw [List.cons_append, readStringFrom_plain hc.1 hc.2,
      ih fun x hx => h x (List.mem_cons_of_mem _ hx)]
    simp

/-- The digits of a code are read as they stand. -/
theorem readStringFrom_code (code : HexCode) :
    readStringFrom consumed builder (code.text ++ rest) =
      readStringFrom (code.text.reverse ++ consumed)
        (code.digits.reverse ++ 'u' :: builder) rest := by
  have hdigits : ∀ c ∈ code.digits, c ≠ '"' ∧ c ≠ '\\' := by
    intro c hc
    have hhex := List.all_eq_true.mp code.hex c hc
    constructor
    · rintro rfl
      exact absurd hhex (by decide)
    · rintro rfl
      exact absurd hhex (by decide)
  rw [HexCode.text, List.cons_append, List.cons_append, readStringFrom,
    readStringFrom_plains _ hdigits]
  simp [unescape]

/-- One step of the reader for each way to write a character. -/
theorem readStringFrom_written (written : Written) :
    readStringFrom consumed builder (written.text ++ rest) =
      readStringFrom (written.text.reverse ++ consumed)
        (written.taken.reverse ++ builder) rest := by
  cases written with
  | verbatim c plain =>
    have hc : c ≠ '"' ∧ c ≠ '\\' ∧ c ≠ '\n' ∧ c ≠ '\r' := by simpa [isPlain] using plain
    exact readStringFrom_plain hc.1 hc.2.1
  | short escape known =>
    have hmeaning : ∀ escape ∈ shortEscapes, unescape escape.1 = escape.2 := by decide
    rw [Written.text, Written.taken, Written.char, ← hmeaning escape known]
    · rfl
    · simp
    · simp
  | unicode code =>
    rw [Written.text, readStringFrom_code]
    simp [Written.taken]
  | surrogates =>
    rw [Written.text, List.append_assoc, readStringFrom_code, readStringFrom_code]
    simp [Written.taken]

/-- A literal is read up to its closing quote, piece by piece. -/
theorem readStringFrom_text (literal : List Written) :
    readStringFrom consumed builder (text literal ++ '"' :: rest) =
      .ok (String.ofList (builder.reverse ++ literal.flatMap Written.taken),
        ⟨'"' :: ((text literal).reverse ++ consumed), rest⟩) := by
  induction literal generalizing consumed builder with
  | nil => simp [text, readStringFrom]
  | cons written literal ih =>
    rw [text, List.flatMap_cons, List.append_assoc, readStringFrom_written]
    rw [text] at ih
    rw [ih]
    simp

end Parser

theorem length_le_length_taken (literal : List Written) :
    literal.length ≤ (literal.flatMap Written.taken).length := by
  induction literal with
  | nil => simp
  | cons written =>
    have hone := written.one_le_length_taken
    rw [List.flatMap_cons, List.length_append, List.length_cons]
    omega

/-- Every piece is read as one character or more, so a piece that is read as more is not made up
for by the others. -/
theorem taken_eq_iff (literal : List Written) :
    literal.flatMap Written.taken = literal.map Written.char ↔
      ∀ written ∈ literal, written.isCoded = false := by
  induction literal with
  | nil => simp
  | cons written literal ih =>
    rw [List.flatMap_cons, List.map_cons, List.forall_mem_cons, ← ih]
    cases hcoded : written.isCoded with
    | false => simp [Written.taken_of_not_isCoded hcoded]
    | true =>
      refine iff_of_false (fun heq => ?_) (by simp)
      have hlength := congrArg List.length heq
      have hmore := Written.one_lt_length_taken hcoded
      have hrest := length_le_length_taken literal
      rw [List.length_append, List.length_cons, List.length_map] at hlength
      omega

/-- `readString` returns the string and stops behind the closing quote, exactly when no character
is written by its code. -/
theorem readString_text_iff (literal : List Written) (consumed rest : List Char) :
    Parser.readString ⟨consumed, '"' :: text literal ++ '"' :: rest⟩ =
        .ok (string literal, ⟨'"' :: ((text literal).reverse ++ '"' :: consumed), rest⟩) ↔
      ∀ written ∈ literal, written.isCoded = false := by
  rw [← taken_eq_iff, Parser.readString, Parser.advance]
  simp [Parser.readStringFrom_text, string, String.ofList_inj]

/-- The letter A by its code. -/
def codedA : HexCode := ⟨"0041".toList, by decide, by decide⟩

/-- `"\u0041"` is read as `u0041`. -/
theorem code_taken_for_digits :
    string [.unicode codedA (by decide)] = "A" ∧
      (Parser.readString ⟨[], '"' :: text [.unicode codedA (by decide)] ++ ['"']⟩).map Prod.fst =
        .ok "u0041" := by
  decide

end Layr.Graphql
