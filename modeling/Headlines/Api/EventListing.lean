import Headlines.Api.Event
import Headlines.ToMathlib.Forall2

/-! # What a listing of events returns

Each event of an answer is a row of the log that passes the filter of the request.
-/

namespace Headlines.Api

open Core Store ReadCommitted

/-- A page has no other rows than those after the cursor. -/
theorem mem_of_mem_page {R : Type} {query : PageQuery R} {cursor : Option SortKey} {limit : ℕ} {rows : List R} {row : R}
    (member : row ∈ (Keyset.cut limit (query.fetch cursor limit rows)).1) : row ∈ query.remaining cursor rows := by
  have fetched : row ∈ query.fetch cursor limit rows := by
    rw [Keyset.cut] at member
    split at member
    · exact List.mem_of_mem_take member
    · exact member
  exact List.mem_mergeSort.mp (List.mem_of_mem_take fetched)

variable {service : EventService} {codec : CursorCodec} {database : Database} {subject : Subject}
  {request : ListEventsRequest} {filter : ListEventsFilter} {cursor : Option SortKey}

/-- A request whose filter and token are well-formed, with times that the column can have. -/
structure Accepted (service : EventService) (codec : CursorCodec) (request : ListEventsRequest)
    (filter : ListEventsFilter) (cursor : Option SortKey) : Prop where
  filtered : EventService.listFilter service request = .ok filter
  decoded : codec.cursor PgEventRepo.pageQuery.field ⟨request.pageToken⟩ = .ok cursor
  held : PgEventRepo.bindable filter cursor

/-- The rows that a filter and a cursor select. -/
structure Selects (filter : ListEventsFilter) (cursor : Option SortKey) (row : EventRow) : Prop where
  passes : PgEventRepo.passes filter row
  after : cursor.all fun key => Direction.asc.passes (key.1.stored, key.2) (row.receivedAt, row.id)

/-- What is listed was recorded, and is selected. -/
theorem listEvents_returns : Throwing.Returns
    (fun response : ListEventsResponse => ∃ filter cursor, Accepted service codec request filter cursor ∧
      ∀ item ∈ response.items, ∃ row ∈ database.events, Selects filter cursor row ∧
        eventToProto row.toEvent = .ok item)
    (EventService.listEvents service codec database subject request) := by
  refine (Throwing.Returns.require _ _).bind fun _ _ => ?_
  have check {ρ : Type} (outcome : Except HeadlinesError ρ) :
      Throwing.Returns (fun value => outcome = .ok value) (Handler.check outcome) := by
    cases outcome with
    | ok value => exact .pure rfl
    | error error => exact nofun
  refine (check _).bind fun filter filtered => ?_
  refine PgEventRepo.listBuilt_returns.adapt.bind ?_
  rintro _ ⟨cursor, decoded, held, rfl⟩
  refine (check _).bind fun items converted => .pure ⟨filter, cursor, ⟨filtered, decoded, held⟩, fun item member => ?_⟩
  obtain ⟨event, inPage, same⟩ := (Except.mapM_eq_ok.mp converted).exists_left member
  obtain ⟨row, kept, rfl⟩ := List.mem_map.mp inPage
  obtain ⟨inLog, after⟩ := List.mem_filter.mp (mem_of_mem_page kept)
  obtain ⟨inTable, passes⟩ := List.mem_filter.mp inLog
  exact ⟨row, inTable, ⟨passes, after⟩, same⟩

/-- The answer to a request that is accepted. -/
theorem listed {snapshots : ℕ → Except Fault Contents} {response : ListEventsResponse}
    (succeeds : (EventService.listEvents service codec database subject request).run.onSnapshots snapshots =
      some (.ok response)) :
    ∃ filter cursor, Accepted service codec request filter cursor ∧
      ∀ item ∈ response.items, ∃ row ∈ database.events, Selects filter cursor row ∧
        eventToProto row.toEvent = .ok item :=
  listEvents_returns.onSnapshots succeeds

end Headlines.Api
