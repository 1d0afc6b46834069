import Headlines.Autocommit.System
import Headlines.Store.Lists

/-! # Recording events

An event is stamped with an id and the wall clock before its `INSERT` is sent, and a batch with one time for
all its events. The `INSERT` is one statement that commits on its own.
-/

namespace Headlines.Core

structure EventRecord where
  userId : Uuid
  articleId : Option Uuid
  type : EventType
  occurredAt : Timestamp
  surface : String
  properties : Json

end Headlines.Core

namespace Headlines.Store

open Core Autocommit
open ReadCommitted (Fault)

/-- The row as its columns hold it. -/
def EventRow.stored (row : EventRow) : EventRow :=
  { row with occurredAt := row.occurredAt.stored, receivedAt := row.receivedAt.stored }

/-- The check on the type, and what the other columns can hold. -/
def EventRow.admitted (row : EventRow) : Bool :=
  ["IMPRESSION", "OPEN", "DWELL", "LIKE", "UNLIKE", "SHARE"].contains row.type &&
    storableText row.surface && storableJson row.properties

namespace Database

/-- `INSERT` of all the rows or, if one of them is refused, of none. -/
def insertEvents (database : Database) (rows : List EventRow) : Except Fault (List EventRow × Database) :=
  let written := rows.map EventRow.stored
  if unique : ((database.events ++ written).map EventRow.id).Nodup then
    if written.all EventRow.admitted then
      .ok (written,
        { database with
          events := database.events ++ written
          events_nodup := unique
          event_stored := by
            intro row member
            rcases List.mem_append.mp member with old | new
            · exact database.event_stored row old
            · obtain ⟨given, _, rfl⟩ := List.mem_map.mp new
              exact Timestamp.stored_stored _ })
    else .error .constraint
  else .error .unique

theorem insertEvents_ok {database after : Database} {rows returned : List EventRow}
    (inserted : database.insertEvents rows = .ok (returned, after)) :
    returned = rows.map EventRow.stored ∧ after.events = database.events ++ rows.map EventRow.stored := by
  simp only [insertEvents] at inserted
  split at inserted
  · split at inserted
    · cases inserted
      exact ⟨rfl, rfl⟩
    · contradiction
  · contradiction

end Database

inductive EventStatement where
  | acquire
  | insertEvents (rows : List EventRow)

abbrev EventStatement.Result : EventStatement → Type
  | .acquire => Unit
  | .insertEvents _ => List EventRow

/-- What a statement answers, and the tables it leaves. -/
def EventStatement.execute : (statement : EventStatement) → Database → Except Fault (statement.Result × Database)
  | .acquire, database => .ok ((), database)
  | .insertEvents rows, database => database.insertEvents rows

/-- The parameters of a statement, eight for each row. -/
def EventStatement.parameters : EventStatement → ℕ
  | .acquire => 0
  | .insertEvents rows => 8 * rows.length

/-- A statement is sent with its parameters; their number has 16 bits on the wire. -/
def EventStatement.send (statement : EventStatement) (database : Database) :
    Except Fault (statement.Result × Database) :=
  if statement.parameters < 2 ^ 16 then statement.execute database else .error .lost

theorem EventStatement.send_ok {statement : EventStatement} {database : Database} {answer : statement.Result × Database}
    (sent : statement.send database = .ok answer) :
    statement.parameters < 2 ^ 16 ∧ statement.execute database = .ok answer := by
  simp only [send] at sent
  split at sent
  · next fits => exact ⟨fits, sent⟩
  · contradiction

/-- Repository code of the event writers. -/
abbrev EventDb (ρ : Type) := Throwing EventStatement.Result Answer HeadlinesError ρ

def EventDb.execute (statement : EventStatement) (context : String) : EventDb statement.Result :=
  Throwing.execute statement (Db.internal context)

namespace PgEventRepo

def insertEvent (record : EventRecord) (id : Uuid) (receivedAt : Timestamp) : EventRow where
  id := id
  userId := record.userId
  articleId := record.articleId
  type := record.type.value
  occurredAt := record.occurredAt
  receivedAt := receivedAt
  surface := record.surface
  properties := record.properties

def get : EventDb Unit := EventDb.execute .acquire "acquire diesel-async connection from deadpool"

def newIdAndNow : EventDb (Uuid × Timestamp) := do
  let id ← Throwing.ask Question.nowV7
  let now ← Throwing.ask Question.now
  return (id, now)

def record (record : EventRecord) : EventDb Event := do
  get
  let (id, receivedAt) ← newIdAndNow
  let context := "insert event"
  let rows : List EventRow ← EventDb.execute (.insertEvents [insertEvent record id receivedAt]) context
  let row : EventRow ← Throwing.okOr rows.head? (.internal context .notFound)
  return row.toEvent

/-- An id for each record, in their order. -/
def inserts (now : Timestamp) : List EventRecord → EventDb (List EventRow)
  | [] => return []
  | record :: rest => do
      let id ← Throwing.ask Question.nowV7
      let rows ← inserts now rest
      return insertEvent record id now :: rows

def recordBatch (records : List EventRecord) : EventDb (List Event) := do
  if records.isEmpty then return []
  get
  let now ← Throwing.ask Question.now
  let rows ← inserts now records
  let rows : List EventRow ← EventDb.execute (.insertEvents rows) "insert event batch"
  return rows.map EventRow.toEvent

end PgEventRepo

inductive EventRequest where
  | record (record : EventRecord)
  | recordBatch (records : List EventRecord)

/-- The writers of events over one database. -/
def eventWriters : System EventStatement.Result Answer EventRequest (Except HeadlinesError (List Event)) Database where
  execute := EventStatement.execute
  program
    | .record record => (List.singleton <$> PgEventRepo.record record : EventDb _).run
    | .recordBatch records => (PgEventRepo.recordBatch records).run

end Headlines.Store
