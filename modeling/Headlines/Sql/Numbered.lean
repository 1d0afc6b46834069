import Mathlib

/-! # Queries with numbered parameters

A `WHERE` clause that is assembled step by step numbers its parameters as it goes, and the values are bound
afterwards. A clause means what it was meant to as long as each value stands at the number its clause has taken.
-/

namespace Sql

variable {Bind Row α : Type*}

/-- A condition, by the numbers of its parameters and what it says of a row once they have values. -/
structure Clause (Bind Row : Type*) where
  params : List ℕ
  meaning : List Bind → Option (Row → Bool)

/-- The value of a parameter; numbers start at one. -/
def lookup (binds : List Bind) : ℕ → Option Bind
  | 0 => none
  | n + 1 => binds[n]?

/-- A clause whose parameters have no values, or values of other types, is an error. -/
def Clause.predicate (binds : List Bind) (clause : Clause Bind Row) : Option (Row → Bool) :=
  (clause.params.mapM (lookup binds)).bind clause.meaning

/-- The clauses so far, and the number of the next parameter. -/
structure Builder (Bind Row : Type*) where
  clauses : List (Clause Bind Row)
  nextParam : ℕ

namespace Builder

/-- Take a number if there is something to bind. -/
def number (builder : Builder Bind Row) (present : Bool) : Option ℕ × Builder Bind Row :=
  if present then (some builder.nextParam, { builder with nextParam := builder.nextParam + 1 }) else (none, builder)

def push (builder : Builder Bind Row) (clause : Clause Bind Row) : Builder Bind Row :=
  { builder with clauses := builder.clauses ++ [clause] }

/-- Take a number and add its clause, if there is something to bind. -/
def slot (builder : Builder Bind Row) (present : Bool) (clause : ℕ → Clause Bind Row) : Option ℕ × Builder Bind Row :=
  match builder.number present with
  | (some n, builder) => (some n, builder.push (clause n))
  | (none, builder) => (none, builder)

/-- There is a number exactly if there is something to bind. -/
@[simp] theorem slot_isSome (builder : Builder Bind Row) (present : Bool) (clause : ℕ → Clause Bind Row) :
    (builder.slot present clause).1.isSome = present := by
  cases present <;> rfl

/-- The numbers taken are those of the values bound so far, and with these the clauses have their meanings,
whatever is bound later. -/
structure Aligned (builder : Builder Bind Row) (binds : List Bind) (predicates : List (Row → Bool)) : Prop where
  next : builder.nextParam = binds.length + 1
  mean : ∀ later, builder.clauses.mapM (Clause.predicate (binds ++ later)) = some predicates

end Builder

theorem lookup_append (binds : List Bind) (bind : Bind) (later : List Bind) :
    lookup (binds ++ bind :: later) (binds.length + 1) = some bind := by
  simp [lookup]

/-- A further clause. -/
private theorem mapM_concat {f : α → Option (Row → Bool)} {items : List α} {values : List (Row → Bool)} {item : α}
    {value : Row → Bool} (first : items.mapM f = some values) (last : f item = some value) :
    (items ++ [item]).mapM f = some (values ++ [value]) := by
  simp [List.mapM_append, first, last]

namespace Builder.Aligned

variable {builder : Builder Bind Row} {binds : List Bind} {predicates : List (Row → Bool)}

/-- A value that is there gets a number, a clause and, at that number, its place among the values. -/
theorem slot (aligned : builder.Aligned binds predicates) (value : Option α) (clause : ℕ → Clause Bind Row)
    (bind : α → Bind) (predicate : α → Row → Bool) (single : ∀ n, (clause n).params = [n])
    (means : ∀ n v, (clause n).meaning [bind v] = some (predicate v)) :
    (builder.slot value.isSome clause).2.Aligned (binds ++ (value.map bind).toList)
      (predicates ++ (value.map predicate).toList) := by
  cases value with
  | none => simpa [Builder.slot, number] using aligned
  | some v =>
    refine ⟨?_, fun later => mapM_concat ?_ ?_⟩
    · simp [Builder.slot, number, push, aligned.next]
    · simpa [Builder.slot, number, push] using aligned.mean (bind v :: later)
    · rw [Clause.predicate, single, aligned.next]
      simp [lookup_append, means]

/-- A pair of values gets two numbers and one clause. -/
theorem pair (aligned : builder.Aligned binds predicates) {one other : Bind} {clause : Clause Bind Row}
    {predicate : Row → Bool} (params : clause.params = [binds.length + 1, binds.length + 2])
    (means : clause.meaning [one, other] = some predicate) :
    (((builder.number true).2.number true).2.push clause).Aligned (binds ++ [one, other]) (predicates ++ [predicate]) := by
  refine ⟨?_, fun later => mapM_concat ?_ ?_⟩
  · simp [number, push, aligned.next]
  · simpa [number, push] using aligned.mean (one :: other :: later)
  · have second := lookup_append (binds ++ [one]) other later
    rw [Clause.predicate, params]
    simp only [List.append_assoc, List.singleton_append, List.length_append, List.length_singleton] at second
    simp [lookup_append, second, means]

end Builder.Aligned

end Sql
