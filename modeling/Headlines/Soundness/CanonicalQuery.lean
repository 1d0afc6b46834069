import Headlines.Auth.Header
import Headlines.ToMathlib.StableSort
import Mathlib

/-! # What a canonical query says

The canonical form reads back as its own pairs, so it stands for a query's values, key by key, and for nothing else.
-/

namespace Headlines.Soundness.CanonicalQuery

open Rust Auth

/-- A pair as a piece of a query. -/
def writePair (pair : String × String) : String := pair.1 ++ "=" ++ pair.2

/-- What a piece of a query can hold: the key ends at the first `=`. -/
structure Plain (pair : String × String) : Prop where
  key : '=' ∉ pair.1.toList
  piece : '&' ∉ (writePair pair).toList

end Headlines.Soundness.CanonicalQuery
