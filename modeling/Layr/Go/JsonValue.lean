import Layr.Go.Any
import Layr.Go.Json
import Layr.Go.Strconv

/-!
# Dynamic values as JSON

`json.Marshal` writes the entries of a map in the order of their keys, so the text of a value
does not depend on the order in which Go visits its maps. Values that a JSON decoder has made
hold no integers and only finite floats; for them the text determines the value up to that
order.
-/

namespace Layr.Go

/-- How `float64` values are written and read. The formatting chooses the shortest text that
reads back as the same value, which is all that is used of it. -/
structure FloatFormat where
  text : Float64 → Json.NumberText
  parse : Json.NumberText → Float64
  parse_text : ∀ f, f.isFinite → parse (text f) = f

namespace Json

/-- The text of an integer. -/
def NumberText.ofInt (i : ℤ) : NumberText where
  runes := Strconv.formatInt i
  nonempty := by
    obtain ⟨first, runes, hlist, -, -⟩ := Strconv.formatInt_cases i
    simp [hlist]
  numeric := by
    intro c hc
    obtain ⟨-, -, -, -, hrunes⟩ := Strconv.formatInt_cases i
    rcases hrunes c hc with hdigit | rfl
    · simp [isNumberRune, hdigit]
    · decide

/-- The number a text of decimal digits stands for. -/
def NumberText.toNat (text : NumberText) : ℕ := (Strconv.decimalValue text.runes).getD 0

theorem NumberText.toNat_ofInt (n : ℕ) : (NumberText.ofInt n).toNat = n := by
  have hrunes : (NumberText.ofInt n).runes = Nat.toDigits 10 n := by
    simp [NumberText.ofInt, Strconv.formatInt]
  rw [NumberText.toNat, hrunes, Strconv.decimalValue_toDigits, Option.getD_some]

theorem NumberText.ofInt_injective : Function.Injective NumberText.ofInt := by
  intro i j h
  exact Strconv.formatInt_injective (congrArg NumberText.runes h)

end Json

/-- A format that writes the bits, to evaluate definitions on concrete values. -/
def FloatFormat.bits : FloatFormat where
  text f := .ofInt f.bits.toNat
  parse text := ⟨BitVec.ofNat 64 text.toNat⟩
  parse_text := by
    intro f _
    rw [Json.NumberText.toNat_ofInt, BitVec.ofNat_toNat, BitVec.setWidth_eq]

namespace Value

mutual

/-- The value with the entries of every map in the order of their keys. -/
def canonical : Value → Value
  | list items => list (canonicalItems items)
  | obj fields => obj (GoMap.sorted (canonicalFields fields))
  | scalar => scalar

def canonicalItems : List Value → List Value
  | [] => []
  | item :: items => canonical item :: canonicalItems items

def canonicalFields : List (String × Value) → List (String × Value)
  | [] => []
  | (key, value) :: fields => (key, canonical value) :: canonicalFields fields

end

mutual

/-- A value that a JSON decoder can return. -/
def isDecoded : Value → Bool
  | int _ => false
  | float f => f.isFinite
  | list items => areDecoded items
  | obj fields => fieldsDecoded fields
  | _ => true

def areDecoded : List Value → Bool
  | [] => true
  | item :: items => isDecoded item && areDecoded items

def fieldsDecoded : List (String × Value) → Bool
  | [] => true
  | (_, value) :: fields => isDecoded value && fieldsDecoded fields

end

variable (format : FloatFormat)

mutual

/-- The document `json.Marshal` writes for a value. -/
def toJson : Value → Json
  | null => .null
  | bool b => .bool b
  | int i => .num (.ofInt i)
  | float f => .num (format.text f)
  | str s => .str s
  | list items => .arr (itemsToJson items)
  | obj fields => .obj (GoMap.sorted (fieldsToJson fields))

def itemsToJson : List Value → List Json
  | [] => []
  | item :: items => toJson item :: itemsToJson items

def fieldsToJson : List (String × Value) → List (String × Json)
  | [] => []
  | (key, value) :: fields => (key, toJson value) :: fieldsToJson fields

end

mutual

/-- The value a JSON decoder makes of a document. -/
def ofJson : Json → Value
  | .null => null
  | .bool b => bool b
  | .num text => float (format.parse text)
  | .str s => str s
  | .arr items => list (itemsOfJson items)
  | .obj members => obj (membersOfJson members)

def itemsOfJson : List Json → List Value
  | [] => []
  | item :: items => ofJson item :: itemsOfJson items

def membersOfJson : List (String × Json) → List (String × Value)
  | [] => []
  | (key, value) :: members => (key, ofJson value) :: membersOfJson members

end

theorem membersOfJson_eq (members : GoMap Json) :
    membersOfJson format members = GoMap.mapValues (ofJson format) members := by
  induction members with
  | nil => rfl
  | cons e members ih => rw [membersOfJson, ih]; rfl

mutual

/-- Decoding what was encoded only sorts the maps. -/
theorem ofJson_toJson : ∀ {v : Value}, v.isDecoded →
    ofJson format (toJson format v) = v.canonical
  | null, _ => rfl
  | bool b, _ => rfl
  | str s, _ => rfl
  | int i, h => by cases h
  | float f, h => by
    rw [isDecoded] at h
    rw [toJson, ofJson, format.parse_text f h, canonical]
    all_goals simp
  | list items, h => by
    rw [isDecoded] at h
    rw [toJson, ofJson, itemsOfJson_itemsToJson h, canonical]
  | obj fields, h => by
    rw [isDecoded] at h
    rw [toJson, ofJson, membersOfJson_eq, ← GoMap.sorted_mapValues, ← membersOfJson_eq,
      membersOfJson_fieldsToJson h, canonical]

theorem itemsOfJson_itemsToJson : ∀ {items : List Value}, areDecoded items →
    itemsOfJson format (itemsToJson format items) = canonicalItems items
  | [], _ => rfl
  | item :: items, h => by
    rw [areDecoded, Bool.and_eq_true] at h
    rw [itemsToJson, itemsOfJson, ofJson_toJson h.1, itemsOfJson_itemsToJson h.2, canonicalItems]

theorem membersOfJson_fieldsToJson : ∀ {fields : List (String × Value)},
    fieldsDecoded fields →
    membersOfJson format (fieldsToJson format fields) = canonicalFields fields
  | [], _ => rfl
  | (key, value) :: fields, h => by
    rw [fieldsDecoded, Bool.and_eq_true] at h
    rw [fieldsToJson, membersOfJson, ofJson_toJson h.1, membersOfJson_fieldsToJson h.2,
      canonicalFields]

end

/-- The document of a decoded value determines the value, up to the order of its maps. -/
theorem canonical_eq_of_toJson_eq {v w : Value} (hv : v.isDecoded)
    (hw : w.isDecoded) (h : toJson format v = toJson format w) :
    v.canonical = w.canonical := by
  rw [← ofJson_toJson format hv, ← ofJson_toJson format hw, h]

end Value

end Layr.Go
