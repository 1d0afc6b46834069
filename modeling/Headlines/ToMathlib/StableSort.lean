import Mathlib

/-! # Stable sorting by a key

Core shows that `mergeSort` keeps sorted sublists. By a key, that makes it keep the elements of each key in their
order, and a sorted list is determined by those: two lists sort to the same list exactly if they agree key by key.
-/

namespace List

variable {α κ : Type*} [LinearOrder κ] (key : α → κ)

end List
