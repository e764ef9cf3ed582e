import Layr.Kv.Keys
import Layr.Rest.Filter

/-!
# Cache keys of list requests (`data/rest/cache.go`)
-/

namespace Layr.Rest

open Go Kv

mutual

/-- The runes of `formatEmbeddedField`. -/
def embeddedRunes : EmbeddedField → List Char
  | .mk relation fields children =>
    relation.toList ++ '(' :: (Strings.join "," fields).toList ++ ')' :: '{' ::
      childRunes children ++ ['}']

/-- The runes of the children, with semicolons between them. -/
def childRunes : List EmbeddedField → List Char
  | [] => []
  | [child] => embeddedRunes child
  | child :: next :: children => embeddedRunes child ++ ';' :: childRunes (next :: children)

end

/-- `formatEmbeddedField`. -/
def formatEmbeddedField (embeddedField : EmbeddedField) : String :=
  String.ofList (embeddedRunes embeddedField)

/-- The text of a filter in the key. -/
def filterString (filterOp : FilterOp) : String :=
  let valueString :=
    if filterOp.values.length > 0 then Strings.join "," filterOp.values else filterOp.value
  filterOp.column ++ "." ++ filterOp.op.text ++ "." ++ valueString

/-- `fmt.Sprintf("%t", b)`. -/
def boolText (b : Bool) : String := if b then "true" else "false"

/-- The text of an order in the key. -/
def orderString (orderOp : OrderBy) : String :=
  orderOp.column ++ "." ++ boolText orderOp.desc ++ "." ++ boolText orderOp.nullsLast

/-- `GenerateUserVisibleRESTKeyWithVersion`. -/
def generateUserVisibleRESTKeyWithVersion (digest : Digest) (schema table : String)
    (queryParams : QueryParams) (customSuffix : String) (tableVersion : ℤ) : String :=
  buildRESTQueryKeyWithVersion digest schema table tableVersion queryParams.fields
    (queryParams.embedded.map formatEmbeddedField) (queryParams.filters.map filterString)
    (queryParams.orders.map orderString) queryParams.limit queryParams.offset
    queryParams.countExact customSuffix

end Layr.Rest
