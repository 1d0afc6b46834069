import Headlines.Sql.Numbered
import Headlines.Store.Lists

/-! # The query that lists events

`list` assembles its `WHERE` clause from the filters there are, numbering their parameters, and binds their values
in a second pass. The query returns what the filter and the cursor select, unless a time is beyond the column.
-/

namespace Headlines.Store

open Core ReadCommitted Sql

/-- Values that are bound to parameters. -/
inductive SqlValue where
  | uuid (value : Uuid)
  | texts (values : List String)
  | timestamptz (value : Timestamp)
  | bigInt (value : ℕ)
deriving DecidableEq, Repr

/-- From 4713 BC to the year 294276, in microseconds from the epoch of Postgres. -/
def timestamptzHolds (time : Timestamp) : Bool :=
  let ticks := (time - Timestamp.pgEpoch).tdiv 1000
  decide (-211813488000000000 ≤ ticks) && decide (ticks < 9223371331200000000)

def SqlValue.inRange : SqlValue → Bool
  | .timestamptz value => timestamptzHolds value
  | _ => true

namespace PgEventRepo

/-- `1 = 1`. -/
def always : Clause SqlValue EventRow := ⟨[], fun _ => some fun _ => true⟩

def userIdIs (n : ℕ) : Clause SqlValue EventRow where
  params := [n]
  meaning
    | [.uuid userId] => some fun row => decide (row.userId = userId)
    | _ => none

/-- A column that is `NULL` equals nothing. -/
def articleIdIs (n : ℕ) : Clause SqlValue EventRow where
  params := [n]
  meaning
    | [.uuid articleId] => some fun row => decide (row.articleId = some articleId)
    | _ => none

def typeIsAny (n : ℕ) : Clause SqlValue EventRow where
  params := [n]
  meaning
    | [.texts types] => some fun row => types.any fun type => decide (row.type = type)
    | _ => none

def receivedFrom (n : ℕ) : Clause SqlValue EventRow where
  params := [n]
  meaning
    | [.timestamptz time] => some fun row => decide (time.stored ≤ row.receivedAt)
    | _ => none

def receivedUntil (n : ℕ) : Clause SqlValue EventRow where
  params := [n]
  meaning
    | [.timestamptz time] => some fun row => decide (row.receivedAt < time.stored)
    | _ => none

def afterCursor (received id : ℕ) : Clause SqlValue EventRow where
  params := [received, id]
  meaning
    | [.timestamptz time, .uuid id] => some fun row => pageQuery.direction.passes (time.stored, id) (pageQuery.sortKey row)
    | _ => none

/-- A query with its values. -/
structure EventQuery where
  clauses : List (Clause SqlValue EventRow)
  limitParam : ℕ
  binds : List SqlValue

/-- The filters take their numbers in a fixed order, and the values follow in the same one. -/
def buildList (filter : ListEventsFilter) (cursor : Option SortKey) (limit : ℕ) : EventQuery :=
  let builder : Builder SqlValue EventRow := ⟨[always], 1⟩
  let (userParam, builder) := builder.slot filter.userId.isSome userIdIs
  let (articleParam, builder) := builder.slot filter.articleId.isSome articleIdIs
  let (typesParam, builder) := builder.slot (!filter.types.isEmpty) typeIsAny
  let (afterParam, builder) := builder.slot filter.receivedAfter.isSome receivedFrom
  let (beforeParam, builder) := builder.slot filter.receivedBefore.isSome receivedUntil
  let (cursorReceivedParam, builder) := builder.number cursor.isSome
  let (cursorIdParam, builder) := builder.number cursor.isSome
  let builder := match cursorReceivedParam, cursorIdParam with
    | some received, some id => builder.push (afterCursor received id)
    | _, _ => builder
  { clauses := builder.clauses
    limitParam := builder.nextParam
    binds :=
      (if userParam.isSome then (filter.userId.map SqlValue.uuid).toList else []) ++
      (if articleParam.isSome then (filter.articleId.map SqlValue.uuid).toList else []) ++
      (if typesParam.isSome then [.texts (filter.types.map EventType.value)] else []) ++
      (if afterParam.isSome then (filter.receivedAfter.map SqlValue.timestamptz).toList else []) ++
      (if beforeParam.isSome then (filter.receivedBefore.map SqlValue.timestamptz).toList else []) ++
      (cursor.elim [] fun key => [.timestamptz key.1, .uuid key.2]) ++
      [.bigInt (limit + 1)] }

/-- A query is refused if its parameters and its values do not go together, or a value has no place in its type. -/
def EventQuery.run (query : EventQuery) (rows : List EventRow) : Except Fault (List EventRow) :=
  if query.binds.length = query.limitParam ∧ query.binds.all SqlValue.inRange then
    match query.clauses.mapM (Clause.predicate query.binds), lookup query.binds query.limitParam with
    | some predicates, some (.bigInt limit) =>
        .ok ((pageQuery.sort (rows.filter fun row => predicates.all (· row))).take limit)
    | _, _ => .error .constraint
  else .error .constraint

/-- The times of a filter and a cursor are ones that the column can have. -/
def bindable (filter : ListEventsFilter) (cursor : Option SortKey) : Bool :=
  filter.receivedAfter.all timestamptzHolds && filter.receivedBefore.all timestamptzHolds &&
    cursor.all fun key => timestamptzHolds key.1

section Built

variable (filter : ListEventsFilter)

/-- The types of a filter that has any. -/
def someTypes : Option (List String) := if filter.types.isEmpty then none else some (filter.types.map EventType.value)

theorem someTypes_isSome : (someTypes filter).isSome = !filter.types.isEmpty := by
  unfold someTypes
  split <;> simp_all

/-- The values of the filters. -/
def values : List SqlValue :=
  [] ++ (filter.userId.map .uuid).toList ++ (filter.articleId.map .uuid).toList ++ ((someTypes filter).map .texts).toList ++
    (filter.receivedAfter.map .timestamptz).toList ++ (filter.receivedBefore.map .timestamptz).toList

/-- The values of a cursor. -/
def cursorValues (cursor : Option SortKey) : List SqlValue := cursor.elim [] fun key => [.timestamptz key.1, .uuid key.2]

/-- What the clauses of the filters say. -/
def predicates : List (EventRow → Bool) :=
  [fun _ => true] ++ (filter.userId.map fun userId row => decide (row.userId = userId)).toList ++
    (filter.articleId.map fun articleId row => decide (row.articleId = some articleId)).toList ++
    ((someTypes filter).map fun types row => types.any fun type => decide (row.type = type)).toList ++
    (filter.receivedAfter.map fun time row => decide (time.stored ≤ row.receivedAt)).toList ++
    (filter.receivedBefore.map fun time row => decide (row.receivedAt < time.stored)).toList

/-- The clauses of the filters. -/
def slots : Builder SqlValue EventRow :=
  let builder : Builder SqlValue EventRow := ⟨[always], 1⟩
  let builder := (builder.slot filter.userId.isSome userIdIs).2
  let builder := (builder.slot filter.articleId.isSome articleIdIs).2
  let builder := (builder.slot (someTypes filter).isSome typeIsAny).2
  let builder := (builder.slot filter.receivedAfter.isSome receivedFrom).2
  (builder.slot filter.receivedBefore.isSome receivedUntil).2

theorem slots_aligned : (slots filter).Aligned (values filter) (predicates filter) := by
  have start : (⟨[always], 1⟩ : Builder SqlValue EventRow).Aligned [] [fun _ => true] := ⟨rfl, fun _ => rfl⟩
  have user := start.slot filter.userId userIdIs .uuid _ (fun _ => rfl) (fun _ _ => rfl)
  have article := user.slot filter.articleId articleIdIs .uuid _ (fun _ => rfl) (fun _ _ => rfl)
  have types := article.slot (someTypes filter) typeIsAny .texts _ (fun _ => rfl) (fun _ _ => rfl)
  have after := types.slot filter.receivedAfter receivedFrom .timestamptz _ (fun _ => rfl) (fun _ _ => rfl)
  exact after.slot filter.receivedBefore receivedUntil .timestamptz _ (fun _ => rfl) (fun _ _ => rfl)

theorem buildList_binds (cursor : Option SortKey) (limit : ℕ) : (buildList filter cursor limit).binds =
    values filter ++ cursorValues cursor ++ [.bigInt (limit + 1)] := by
  have types : (if !filter.types.isEmpty then [SqlValue.texts (filter.types.map EventType.value)] else []) =
      ((someTypes filter).map SqlValue.texts).toList := by
    unfold someTypes
    split <;> simp_all
  have guarded {α : Type} (value : Option α) (bind : α → SqlValue) :
      (if value.isSome then (value.map bind).toList else []) = (value.map bind).toList := by
    cases value <;> rfl
  simp only [buildList, Builder.slot_isSome, types, guarded, values, cursorValues, List.nil_append]

/-- Each clause of the query finds its values at the numbers it has taken. -/
theorem buildList_aligned (cursor : Option SortKey) (limit : ℕ) :
    Builder.Aligned ⟨(buildList filter cursor limit).clauses, (buildList filter cursor limit).limitParam⟩
      (values filter ++ cursorValues cursor) (predicates filter ++ (cursor.map fun key row =>
        pageQuery.direction.passes (key.1.stored, key.2) (pageQuery.sortKey row)).toList) := by
  have aligned := slots_aligned filter
  cases cursor with
  | none =>
    have built : (⟨(buildList filter none limit).clauses, (buildList filter none limit).limitParam⟩ : Builder SqlValue EventRow) = slots filter := by
      rw [slots, someTypes_isSome]
      rfl
    simpa only [built, cursorValues, Option.elim_none, Option.map_none, Option.toList_none, List.append_nil] using aligned
  | some key =>
    have built : (⟨(buildList filter (some key) limit).clauses, (buildList filter (some key) limit).limitParam⟩ :
        Builder SqlValue EventRow) = (((slots filter).number true).2.number true).2.push
          (afterCursor (slots filter).nextParam ((slots filter).nextParam + 1)) := by
      rw [slots, someTypes_isSome]
      rfl
    rw [built]
    refine aligned.pair ?_ rfl
    rw [aligned.next]
    rfl

private theorem all_toList {α β : Type} (value : Option α) (f : α → β) (p : β → Bool) :
    (value.map f).toList.all p = value.all fun v => p (f v) := by
  cases value with
  | none => rfl
  | some v => exact Bool.and_true _

/-- The clauses of the filters keep the rows that pass. -/
theorem all_predicates (row : EventRow) : (predicates filter).all (· row) = passes filter row := by
  have types : (((someTypes filter).map fun types (row : EventRow) =>
      types.any fun type => decide (row.type = type)).toList.all (· row)) =
      (filter.types.isEmpty || filter.types.any fun type => decide (row.type = type.value)) := by
    unfold someTypes
    split <;> simp_all [Function.comp_def]
  simp only [predicates, List.all_append, all_toList, types, passes, List.all_cons, List.all_nil, Bool.true_and]

theorem all_inRange (cursor : Option SortKey) (limit : ℕ) :
    (buildList filter cursor limit).binds.all SqlValue.inRange = bindable filter cursor := by
  have ids (value : Option Uuid) : (value.all fun _ => true) = true := by cases value <;> rfl
  have texts (value : Option (List String)) : (value.all fun _ => true) = true := by cases value <;> rfl
  have key : (cursorValues cursor).all SqlValue.inRange = cursor.all fun key => timestamptzHolds key.1 := by
    cases cursor with
    | none => rfl
    | some key => exact Bool.and_true _
  simp only [buildList_binds, values, List.all_append, all_toList, key, SqlValue.inRange, ids, texts, bindable,
    List.all_cons, List.all_nil, Bool.true_and, Bool.and_true]

/-- The query returns the rows that pass the filter, after the cursor and in their order, up to one beyond the page;
it is refused if a time is beyond the column. -/
theorem buildList_run (cursor : Option SortKey) (limit : ℕ) (rows : List EventRow) :
    (buildList filter cursor limit).run rows =
      if bindable filter cursor then .ok (pageQuery.fetch cursor limit (rows.filter (passes filter)))
      else .error .constraint := by
  have aligned := buildList_aligned filter cursor limit
  have binds := buildList_binds filter cursor limit
  have number : (buildList filter cursor limit).limitParam = (values filter ++ cursorValues cursor).length + 1 :=
    aligned.next
  have together : (buildList filter cursor limit).binds.length = (buildList filter cursor limit).limitParam := by
    rw [binds, number, List.length_append, List.length_singleton]
  have found := aligned.mean [.bigInt (limit + 1)]
  have last : lookup (buildList filter cursor limit).binds (buildList filter cursor limit).limitParam =
      some (.bigInt (limit + 1)) := by
    rw [binds, number]
    exact lookup_append _ _ []
  rw [← binds] at found
  simp only [EventQuery.run, together, all_inRange, true_and, found, last]
  split
  · have kept : (rows.filter fun row => (predicates filter ++ (cursor.map fun key row =>
        pageQuery.direction.passes (key.1.stored, key.2) (pageQuery.sortKey row)).toList).all (· row)) =
        pageQuery.remaining cursor (rows.filter (passes filter)) := by
      rw [PageQuery.remaining, List.filter_filter]
      refine List.filter_congr fun row _ => ?_
      rw [List.all_append, all_predicates, all_toList, Bool.and_comm]
    rw [kept]
    rfl
  · rfl

end Built

/-- The page that fetched rows make, and the token for what follows it. -/
def toPage (codec : CursorCodec) (limit : ℕ) (fetched : List EventRow) : ListPage Event :=
  let (kept, last) := Keyset.cut limit fetched
  ⟨kept.map EventRow.toEvent,
    last.elim .empty fun row => codec.encodeCursor pageQuery.field (pageQuery.time row) (pageQuery.id row)⟩

/-- `list`, with the query it builds. -/
def listBuilt (codec : CursorCodec) (database : Database) (filter : ListEventsFilter) (pageSize : Int32)
    (pageToken : PageToken) : Db (ListPage Event) := do
  let limit := (clampPageSize pageSize).toInt.toNat
  let cursor ← Throwing.ofExcept (codec.cursor pageQuery.field pageToken)
  Db.get
  Throwing.ping (Db.internal pageQuery.context)
  let fetched ← Throwing.ofExcept
    (((buildList filter cursor limit).run database.events).mapError (Db.internal pageQuery.context))
  return toPage codec limit fetched

variable {codec : CursorCodec} {database : Database} {filter : ListEventsFilter} {pageSize : Int32} {pageToken : PageToken}
  {cursor : Option SortKey}

/-- With other times it has no result. -/
theorem listBuilt_returns : Throwing.Returns
    (fun page : ListPage Event => ∃ cursor, codec.cursor pageQuery.field pageToken = .ok cursor ∧
      bindable filter cursor ∧ page = toPage codec (clampPageSize pageSize).toInt.toNat
        (pageQuery.fetch cursor (clampPageSize pageSize).toInt.toNat (database.events.filter (passes filter))))
    (listBuilt codec database filter pageSize pageToken) := by
  refine (Throwing.Returns.ofExcept _).bind fun cursor decoded => ?_
  refine (Throwing.Returns.ping _).bind fun _ _ => (Throwing.Returns.ping _).bind fun _ _ => ?_
  refine (Throwing.Returns.ofExcept _).bind fun fetched found => .pure ?_
  rw [buildList_run] at found
  split at found
  · next held =>
    obtain rfl := Except.ok.inj found
    exact ⟨cursor, decoded, held, rfl⟩
  · contradiction

end PgEventRepo

end Headlines.Store
