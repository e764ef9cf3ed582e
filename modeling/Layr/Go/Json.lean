import Layr.Go.Strings
import Layr.Lib.Codes

/-!
# `json.Marshal`

A JSON document is a tree whose objects keep the order in which the encoder writes their
members. `print` is the text Go writes: no blanks, strings escaped as the encoder does it by
default (HTML characters and the two line separators included). The text determines the tree.
-/

namespace Layr.Go

namespace Json

/-! ## Strings -/

/-- A lower-case hexadecimal digit. -/
def hexDigit (n : ℕ) : Char := if n < 10 then Char.ofNat (48 + n) else Char.ofNat (87 + n)

/-- The value of a hexadecimal digit. -/
def hexValue (c : Char) : ℕ := if c.toNat < 58 then c.toNat - 48 else c.toNat - 87

/-- Four hexadecimal digits. -/
def hex4 (n : ℕ) : List Char :=
  [hexDigit (n / 4096 % 16), hexDigit (n / 256 % 16), hexDigit (n / 16 % 16), hexDigit (n % 16)]

/-- Runes written by their code: controls, HTML characters and the line separators of
JavaScript. -/
def isCoded (c : Char) : Bool :=
  c.toNat < 32 || c = '<' || c = '>' || c = '&' || c.toNat = 8232 || c.toNat = 8233

/-- A rune inside a string. -/
def escapeRune (c : Char) : List Char :=
  if c = '"' then ['\\', '"']
  else if c = '\\' then ['\\', '\\']
  else if c.toNat = 8 then ['\\', 'b']
  else if c.toNat = 12 then ['\\', 'f']
  else if c = '\n' then ['\\', 'n']
  else if c = '\r' then ['\\', 'r']
  else if c = '\t' then ['\\', 't']
  else if isCoded c then '\\' :: 'u' :: hex4 c.toNat
  else [c]

/-- A string literal. -/
def printString (s : String) : List Char := '"' :: s.toList.flatMap escapeRune ++ ['"']

/-- The first rune of the inside of a string literal, and what follows it. -/
def unescapeRune : List Char → Option (Char × List Char)
  | '\\' :: 'u' :: a :: b :: c :: d :: rest =>
    some (Char.ofNat (hexValue a * 4096 + hexValue b * 256 + hexValue c * 16 + hexValue d), rest)
  | '\\' :: 'b' :: rest => some (Char.ofNat 8, rest)
  | '\\' :: 'f' :: rest => some (Char.ofNat 12, rest)
  | '\\' :: 'n' :: rest => some ('\n', rest)
  | '\\' :: 'r' :: rest => some ('\r', rest)
  | '\\' :: 't' :: rest => some ('\t', rest)
  | '\\' :: c :: rest => some (c, rest)
  | c :: rest => some (c, rest)
  | [] => none

theorem hexValue_hexDigit {n : ℕ} (h : n < 16) : hexValue (hexDigit n) = n := by
  have hall : ∀ n < 16, hexValue (hexDigit n) = n := by decide
  exact hall n h

theorem toNat_lt_of_isCoded {c : Char} (h : isCoded c) : c.toNat < 65536 := by
  unfold isCoded at h
  simp only [Bool.or_eq_true, decide_eq_true_eq] at h
  rcases h with ((((h | rfl) | rfl) | rfl) | h) | h
  · omega
  · decide
  · decide
  · decide
  · omega
  · omega

theorem unescapeRune_escapeRune (c : Char) (rest : List Char) :
    unescapeRune (escapeRune c ++ rest) = some (c, rest) := by
  have hcode : ∀ n, c.toNat = n → Char.ofNat n = c := by
    rintro _ rfl
    exact Char.ofNat_toNat c
  unfold escapeRune
  split_ifs with h₁ h₂ h₃ h₄ h₅ h₆ h₇ h₈
  · rw [h₁]
    rfl
  · rw [h₂]
    rfl
  · exact congrArg some (Prod.ext (hcode 8 h₃) rfl)
  · exact congrArg some (Prod.ext (hcode 12 h₄) rfl)
  · rw [h₅]
    rfl
  · rw [h₆]
    rfl
  · rw [h₇]
    rfl
  · have hbound := toNat_lt_of_isCoded h₈
    show some (Char.ofNat _, rest) = some (c, rest)
    rw [hexValue_hexDigit (by omega), hexValue_hexDigit (by omega), hexValue_hexDigit (by omega),
      hexValue_hexDigit (by omega), hcode _ (by omega)]
  · rw [List.singleton_append]
    unfold unescapeRune
    split
    all_goals simp_all

/-- No rune inside a string literal starts with the closing quote. -/
theorem escapeRune_cases (c : Char) :
    ∃ first runes, escapeRune c = first :: runes ∧ first ≠ '"' := by
  unfold escapeRune
  split_ifs with hquote
  all_goals first
    | exact ⟨c, [], rfl, hquote⟩
    | exact ⟨'\\', _, rfl, by decide⟩

/-- A string literal and what follows it are determined by the text. -/
theorem printString_append_inj {s t : String} {r r' : List Char}
    (h : printString s ++ r = printString t ++ r') : s = t ∧ r = r' := by
  unfold printString at h
  have hcode : ∀ a b u v, escapeRune a ++ u = escapeRune b ++ v → a = b ∧ u = v := by
    intro a b u v huv
    have hread := congrArg unescapeRune huv
    rw [unescapeRune_escapeRune, unescapeRune_escapeRune] at hread
    exact Prod.mk.inj (Option.some.inj hread)
  have hclose : ∀ a u v, escapeRune a ++ u ≠ '"' :: v := by
    intro a u v huv
    obtain ⟨c, cs, hrunes, hquote⟩ := escapeRune_cases a
    rw [hrunes, List.cons_append, List.cons.injEq] at huv
    exact hquote huv.1
  simp only [List.cons_append, List.append_assoc, List.nil_append, List.cons.injEq, true_and] at h
  obtain ⟨hrunes, hrest⟩ := Codes.flatMap_append_cons_inj hcode hclose h
  exact ⟨String.toList_inj.mp hrunes, hrest⟩

/-! ## Documents -/

/-- The runes of a number. -/
def isNumberRune (c : Char) : Bool := c.isDigit || c = '-' || c = '+' || c = '.' || c = 'e'

/-- The text of a number. -/
structure NumberText where
  runes : List Char
  nonempty : runes ≠ []
  numeric : ∀ c ∈ runes, isNumberRune c

end Json

/-- A JSON document, with the members of an object in the order they are written. -/
inductive Json
  | null
  | bool (b : Bool)
  | num (text : Json.NumberText)
  | str (s : String)
  | arr (items : List Json)
  | obj (members : List (String × Json))

namespace Json

mutual

/-- The text of a document. -/
def print : Json → List Char
  | null => ['n', 'u', 'l', 'l']
  | bool true => ['t', 'r', 'u', 'e']
  | bool false => ['f', 'a', 'l', 's', 'e']
  | num text => text.runes
  | str s => printString s
  | arr [] => ['[', ']']
  | arr (item :: items) => '[' :: print item ++ printItems items
  | obj [] => ['{', '}']
  | obj ((key, value) :: members) =>
      '{' :: printString key ++ ':' :: print value ++ printMembers members

/-- The elements behind the first one, with the closing bracket. -/
def printItems : List Json → List Char
  | [] => [']']
  | item :: items => ',' :: print item ++ printItems items

/-- The members behind the first one, with the closing brace. -/
def printMembers : List (String × Json) → List Char
  | [] => ['}']
  | (key, value) :: members => ',' :: printString key ++ ':' :: print value ++ printMembers members

end

/-! ## The text determines the document -/

/-- What may follow a document inside another one. -/
def isStop (c : Char) : Prop := c = ',' ∨ c = ']' ∨ c = '}'

instance (c : Char) : Decidable (isStop c) := inferInstanceAs (Decidable (_ ∨ _))

/-- The kind of a document, told by the first rune of its text. -/
def kindOfRune (c : Char) : ℕ :=
  if c = 'n' then 0 else if c = 't' then 1 else if c = 'f' then 1 else if c = '"' then 2
  else if c = '[' then 3 else if c = '{' then 4 else 5

def kind : Json → ℕ
  | null => 0
  | bool _ => 1
  | str _ => 2
  | arr _ => 3
  | obj _ => 4
  | num _ => 5

theorem kindOfRune_of_isNumberRune {c : Char} (h : isNumberRune c) : kindOfRune c = 5 := by
  have hne : ∀ x, isNumberRune x = false → c ≠ x := by
    rintro x hx rfl
    rw [hx] at h
    cases h
  unfold kindOfRune
  rw [if_neg (hne _ (by decide)), if_neg (hne _ (by decide)), if_neg (hne _ (by decide)),
    if_neg (hne _ (by decide)), if_neg (hne _ (by decide)), if_neg (hne _ (by decide))]

theorem not_isStop_of_isNumberRune {c : Char} (h : isNumberRune c) : ¬isStop c := by
  rintro (rfl | rfl | rfl)
  · exact absurd h (by decide)
  · exact absurd h (by decide)
  · exact absurd h (by decide)

theorem print_cases (j : Json) :
    ∃ c cs, print j = c :: cs ∧ kindOfRune c = j.kind ∧ ¬isStop c := by
  match j with
  | null => exact ⟨'n', _, by rw [print], rfl, by decide⟩
  | bool true => exact ⟨'t', _, by rw [print], rfl, by decide⟩
  | bool false => exact ⟨'f', _, by rw [print], rfl, by decide⟩
  | str s => exact ⟨'"', _, by rw [print, printString, List.cons_append], rfl, by decide⟩
  | arr [] => exact ⟨'[', _, by rw [print], rfl, by decide⟩
  | arr (item :: items) => exact ⟨'[', _, by rw [print, List.cons_append], rfl, by decide⟩
  | obj [] => exact ⟨'{', _, by rw [print], rfl, by decide⟩
  | obj (member :: members) =>
    exact ⟨'{', _, by rw [print, List.cons_append, List.cons_append], rfl, by decide⟩
  | num ⟨[], hne, _⟩ => exact absurd rfl hne
  | num ⟨c :: cs, _, hnumeric⟩ =>
    have hc := hnumeric c (by simp)
    exact ⟨c, cs, by rw [print], kindOfRune_of_isNumberRune hc, not_isStop_of_isNumberRune hc⟩

theorem stops_printItems (items : List Json) (r : List Char) :
    Codes.Stops isStop (printItems items ++ r) := by
  cases items with
  | nil => exact Codes.stops_cons (.inr (.inl rfl)) _
  | cons => exact Codes.stops_cons (.inl rfl) _

theorem stops_printMembers (members : List (String × Json)) (r : List Char) :
    Codes.Stops isStop (printMembers members ++ r) := by
  cases members with
  | nil => exact Codes.stops_cons (.inr (.inr rfl)) _
  | cons => exact Codes.stops_cons (.inl rfl) _

theorem kind_eq_of_append {j k : Json} {r s : List Char} (h : print j ++ r = print k ++ s) :
    j.kind = k.kind := by
  obtain ⟨c, cs, hj, hkind, -⟩ := print_cases j
  obtain ⟨d, ds, hk, hkind', -⟩ := print_cases k
  rw [hj, hk, List.cons_append, List.cons_append, List.cons.injEq] at h
  rw [← hkind, ← hkind', h.1]

/-- No document starts with the rune that closes an empty list. -/
theorem print_append_ne_close (j : Json) (r s : List Char) : print j ++ r ≠ ']' :: s := by
  intro h
  obtain ⟨c, cs, hj, -, hstop⟩ := print_cases j
  rw [hj, List.cons_append, List.cons.injEq] at h
  exact hstop (.inr (.inl h.1))

/-- The first element differs from the others in the rune in front of it only. -/
theorem printItems_of_arr {items items' : List Json} {r s : List Char}
    (h : print (.arr items) ++ r = print (.arr items') ++ s) :
    printItems items ++ r = printItems items' ++ s := by
  cases items with
  | nil =>
    cases items' with
    | nil => simpa [print, printItems] using h
    | cons item' items' =>
      simp only [print, List.cons_append, List.append_assoc, List.cons.injEq, true_and] at h
      exact absurd h.symm (print_append_ne_close item' _ _)
  | cons item items =>
    cases items' with
    | nil =>
      simp only [print, List.cons_append, List.append_assoc, List.cons.injEq, true_and] at h
      exact absurd h (print_append_ne_close item _ _)
    | cons => simpa [print, printItems] using h

theorem printMembers_of_obj {members members' : List (String × Json)} {r s : List Char}
    (h : print (.obj members) ++ r = print (.obj members') ++ s) :
    printMembers members ++ r = printMembers members' ++ s := by
  cases members <;> cases members' <;> simp_all [print, printMembers, printString]

mutual

/-- A document and what follows it are determined by the text. -/
theorem print_append_inj : ∀ (j k : Json) {r s : List Char}, Codes.Stops isStop r →
    Codes.Stops isStop s → print j ++ r = print k ++ s → j = k ∧ r = s
  | .null, k, r, s, hr, hs, h => by
    cases k with
    | null =>
      simp only [print, List.append_cancel_left_eq] at h
      exact ⟨rfl, h⟩
    | _ => exact absurd (kind_eq_of_append h) (by simp [kind])
  | .bool b, k, r, s, hr, hs, h => by
    cases k with
    | bool b' =>
      cases b <;> cases b' <;> simp_all [print]
    | _ => exact absurd (kind_eq_of_append h) (by simp [kind])
  | .num text, k, r, s, hr, hs, h => by
    cases k with
    | num text' =>
      rw [print, print] at h
      -- numbers have no end mark, so the text behind them has to stop them
      have hruns := Codes.append_inj_of_stops
        (fun c hc => not_isStop_of_isNumberRune (text.numeric c hc))
        (fun c hc => not_isStop_of_isNumberRune (text'.numeric c hc)) hr hs h
      rcases text with ⟨runes, _, _⟩
      rcases text' with ⟨runes', _, _⟩
      obtain rfl : runes = runes' := hruns.1
      exact ⟨rfl, hruns.2⟩
    | _ => exact absurd (kind_eq_of_append h) (by simp [kind])
  | .str text, k, r, s, hr, hs, h => by
    cases k with
    | str text' =>
      rw [print, print] at h
      have htexts := printString_append_inj h
      exact ⟨by rw [htexts.1], htexts.2⟩
    | _ => exact absurd (kind_eq_of_append h) (by simp [kind])
  | .arr items, k, r, s, hr, hs, h => by
    cases k with
    | arr items' =>
      obtain ⟨hitems, hend⟩ := printItems_append_inj items items' (printItems_of_arr h)
      exact ⟨by rw [hitems], hend⟩
    | _ => exact absurd (kind_eq_of_append h) (by simp [kind])
  | .obj members, k, r, s, hr, hs, h => by
    cases k with
    | obj members' =>
      obtain ⟨hmembers, hend⟩ := printMembers_append_inj members members' (printMembers_of_obj h)
      exact ⟨by rw [hmembers], hend⟩
    | _ => exact absurd (kind_eq_of_append h) (by simp [kind])

theorem printItems_append_inj : ∀ (items items' : List Json) {r s : List Char},
    printItems items ++ r = printItems items' ++ s → items = items' ∧ r = s
  | [], items', r, s, h => by
    cases items' with
    | nil =>
      simp only [printItems, List.append_cancel_left_eq] at h
      exact ⟨rfl, h⟩
    | cons =>
      simp [printItems] at h
  | item :: items, items', r, s, h => by
    cases items' with
    | nil => simp [printItems] at h
    | cons item' items' =>
      simp only [printItems, List.cons_append, List.append_assoc, List.cons.injEq, true_and] at h
      obtain ⟨hitem, hrest⟩ :=
        print_append_inj item item' (stops_printItems _ _) (stops_printItems _ _) h
      obtain ⟨hitems, hend⟩ := printItems_append_inj items items' hrest
      exact ⟨by rw [hitem, hitems], hend⟩

theorem printMembers_append_inj : ∀ (members members' : List (String × Json)) {r s : List Char},
    printMembers members ++ r = printMembers members' ++ s → members = members' ∧ r = s
  | [], members', r, s, h => by
    cases members' with
    | nil =>
      simp only [printMembers, List.append_cancel_left_eq] at h
      exact ⟨rfl, h⟩
    | cons => simp [printMembers] at h
  | (key, value) :: members, members', r, s, h => by
    cases members' with
    | nil => simp [printMembers] at h
    | cons member' members' =>
      rcases member' with ⟨key', value'⟩
      simp only [printMembers, List.cons_append, List.append_assoc, List.cons.injEq, true_and] at h
      obtain ⟨hkey, hvalues⟩ := printString_append_inj h
      rw [List.cons.injEq] at hvalues
      obtain ⟨hvalue, hrest⟩ := print_append_inj value value' (stops_printMembers _ _)
        (stops_printMembers _ _) hvalues.2
      obtain ⟨hmembers, hend⟩ := printMembers_append_inj members members' hrest
      exact ⟨by rw [hkey, hvalue, hmembers], hend⟩

end

/-- The bytes `json.Marshal` returns. -/
def text (j : Json) : String := String.ofList (print j)

theorem text_injective : Function.Injective text := by
  intro j k h
  have hprint : print j ++ [] = print k ++ [] := by
    rw [List.append_nil, List.append_nil]
    exact String.ofList_injective h
  exact (print_append_inj j k (Codes.stops_nil _) (Codes.stops_nil _) hprint).1

end Json

end Layr.Go
