import Layr.Graphql.Sql

/-!
# Placeholders and names of a printed statement

What the printed text holds besides the fixed text of the formats, read off its tokens.
-/

namespace Layr.Graphql

/-- The placeholders of a list of tokens. -/
def placeholders (tokens : List Token) : List ℕ :=
  tokens.filterMap fun
    | .placeholder index => some index
    | _ => none

/-- The names of a list of tokens. -/
def names (tokens : List Token) : List String :=
  tokens.filterMap fun
    | .name content => some content
    | _ => none

/-! ## Lists of tokens -/

@[simp]
theorem placeholders_append (tokens tokens' : List Token) :
    placeholders (tokens ++ tokens') = placeholders tokens ++ placeholders tokens' :=
  List.filterMap_append

@[simp]
theorem placeholders_nil : placeholders [] = [] := rfl

@[simp]
theorem placeholders_text (content : String) (tokens : List Token) :
    placeholders (.text content :: tokens) = placeholders tokens := rfl

@[simp]
theorem placeholders_name (content : String) (tokens : List Token) :
    placeholders (.name content :: tokens) = placeholders tokens := rfl

@[simp]
theorem placeholders_placeholder (index : ℕ) (tokens : List Token) :
    placeholders (.placeholder index :: tokens) = index :: placeholders tokens := rfl

@[simp]
theorem names_append (tokens tokens' : List Token) :
    names (tokens ++ tokens') = names tokens ++ names tokens' :=
  List.filterMap_append

@[simp]
theorem names_nil : names [] = [] := rfl

@[simp]
theorem names_text (content : String) (tokens : List Token) :
    names (.text content :: tokens) = names tokens := rfl

@[simp]
theorem names_name (content : String) (tokens : List Token) :
    names (.name content :: tokens) = content :: names tokens := rfl

@[simp]
theorem names_placeholder (index : ℕ) (tokens : List Token) :
    names (.placeholder index :: tokens) = names tokens := rfl

@[simp]
theorem joinTokens_nil (separator : String) : joinTokens separator [] = [] := rfl

@[simp]
theorem joinTokens_singleton (separator : String) (part : List Token) :
    joinTokens separator [part] = part := rfl

@[simp]
theorem joinTokens_cons_cons (separator : String) (part part' : List Token)
    (parts : List (List Token)) :
    joinTokens separator (part :: part' :: parts) =
      part ++ .text separator :: joinTokens separator (part' :: parts) := rfl

theorem placeholders_joinTokens (separator : String) (parts : List (List Token)) :
    placeholders (joinTokens separator parts) = parts.flatMap placeholders := by
  induction parts with
  | nil => rfl
  | cons part parts ih =>
    cases parts with
    | nil => simp
    | cons =>
      rw [joinTokens_cons_cons, placeholders_append, placeholders_text, ih]
      simp

theorem names_joinTokens (separator : String) (parts : List (List Token)) :
    names (joinTokens separator parts) = parts.flatMap names := by
  induction parts with
  | nil => rfl
  | cons part parts ih =>
    cases parts with
    | nil => simp
    | cons =>
      rw [joinTokens_cons_cons, names_append, names_text, ih]
      simp

end Layr.Graphql
