import Mathlib.Data.String.Basic

/-!
# `hash/fnv`

FNV-1a with 64 bits, as `fnv.New64a` computes it.
-/

namespace Layr.Go
namespace Fnv

/-- One byte of the hash. -/
def write64a (hash : UInt64) (byte : UInt8) : UInt64 := (hash ^^^ byte.toUInt64) * 1099511628211

/-- `Sum64` of a text written to `fnv.New64a()`. -/
def sum64a (text : String) : UInt64 :=
  text.toUTF8.data.toList.foldl write64a 14695981039346656037

end Fnv
end Layr.Go
