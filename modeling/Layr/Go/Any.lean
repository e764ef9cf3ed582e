import Layr.Go.Float
import Layr.Go.Maps

/-!
# Go's `any`, as far as JSON and GraphQL values go

The dynamic values the services pass around come out of a JSON decoder or a GraphQL literal:
`nil`, booleans, integers, floats, strings, slices and string-keyed maps. `int` and `int64`
are one constructor, since every type switch in the sources treats the two alike.
-/

namespace Layr.Go

/-- A dynamic value. -/
inductive Value
  | null
  | bool (b : Bool)
  | int (i : ℤ)
  | float (f : Float64)
  | str (s : String)
  | list (items : List Value)
  | obj (fields : List (String × Value))
deriving Repr, Inhabited

namespace Value

/-- `v.(map[string]any)`. -/
def asMap : Value → Option (GoMap Value)
  | obj fields => some fields
  | _ => none

/-- `v.([]any)`. -/
def asList : Value → Option (List Value)
  | list items => some items
  | _ => none

end Value
end Layr.Go
