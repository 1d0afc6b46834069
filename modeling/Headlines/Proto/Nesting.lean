import Headlines.Proto.Wire

/-! # Nested messages

A decoder counts down at every message it enters, entries of maps included, and gives up at zero. What it decodes
is what is nested no deeper than its limit.
-/

namespace Headlines.Proto

/-- `RECURSION_LIMIT`, the levels below the outermost message that are decoded by default. -/
def recursionLimit : ℕ := 100

namespace Message

/-- Decoding the fields of a message with this many levels left. -/
def decodes (levels : ℕ) : Message → Bool
  | empty => true
  | varint _ _ rest => rest.decodes levels
  | bytes _ _ rest => rest.decodes levels
  | nested _ inner rest => levels != 0 && inner.decodes (levels - 1) && rest.decodes levels
  | map _ entries rest => (entries.entries.isEmpty || levels != 0) && rest.decodes levels

/-- The levels of messages below this one. -/
def depth : Message → ℕ
  | empty => 0
  | varint _ _ rest => rest.depth
  | bytes _ _ rest => rest.depth
  | nested _ inner rest => max (inner.depth + 1) rest.depth
  | map _ entries rest => max (if entries.entries.isEmpty then 0 else 1) rest.depth

theorem decodes_iff {message : Message} {levels : ℕ} : message.decodes levels ↔ message.depth ≤ levels := by
  induction message generalizing levels with
  | empty => simp [decodes, depth]
  | varint _ _ _ ih | bytes _ _ _ ih => exact ih
  | nested _ inner rest innerIh restIh =>
    simp only [decodes, depth, Bool.and_eq_true, bne_iff_ne, innerIh, restIh]
    omega
  | map _ entries rest ih =>
    simp only [decodes, depth, Bool.and_eq_true, Bool.or_eq_true, bne_iff_ne, ih]
    cases entries.entries.isEmpty <;> simp <;> omega

end Message

end Headlines.Proto
