import Headlines.Soundness.Pagination
import Headlines.Store.EventRepo

/-! # Draining the event log

A consumer pages through the events until there are no more and later resumes from the last token it got.
Writers stamp an event before they insert it, so that an insert can come to stand behind the consumer's
token, where no later page looks. As long as inserts commit ahead of it, every drain is complete.
-/

namespace Headlines.Soundness.EventDrain

open Core Store Pagination
open ReadCommitted (Fault)

abbrev Writers := Autocommit.State EventStatement.Result Answer EventRequest
  (Except HeadlinesError (List Event)) Database

/-- The last token the consumer got that was not empty, and all it got. -/
structure Consumer where
  token : PageToken
  received : List Event

def Consumer.receive (consumer : Consumer) (page : ListPage Event) : Consumer where
  token := if page.nextPageToken.isEmpty then consumer.token else page.nextPageToken
  received := consumer.received ++ page.items

structure State where
  writers : Writers
  clock : Timestamp
  consumer : Consumer

inductive Label where
  | tick (now : Timestamp)
  | writer (label : Autocommit.Label Answer EventRequest Database)
  | page (pageSize : Int32) (snapshots : ℕ → Except Fault Contents)

variable (codec : CursorCodec) (filter : ListEventsFilter)

/-- What the consumer's next page read answers. -/
def State.read (s : State) (pageSize : Int32) (snapshots : ℕ → Except Fault Contents) :
    Option (Except HeadlinesError (ListPage Event)) :=
  ListOperation.read (.events filter) codec ⟨pageSize, s.writers.store, snapshots⟩ s.consumer.token

/-- The writers read the clock of the state. -/
def State.onClock (s : State) : Autocommit.Label Answer EventRequest Database → Bool
  | .answer _ .now value => decide (value = s.clock)
  | _ => true

/-- The clock never runs backwards. -/
def next (s : State) : Label → Option State
  | .tick now => if s.clock ≤ now then some { s with clock := now } else none
  | .writer label =>
      if s.onClock label then (eventWriters.next s.writers label).map fun writers => { s with writers := writers }
      else none
  | .page pageSize snapshots =>
      match s.read codec filter pageSize snapshots with
      | some (.ok page) => some { s with consumer := s.consumer.receive page }
      | some (.error _) => some s
      | none => none

def machine : Machine State Label where
  Start s := s.writers.sessions = (fun _ => none) ∧ s.consumer = ⟨.empty, []⟩
  next := next codec filter

/-- What else happens to the database leaves the events alone. -/
def EventsOnly (s : State) : Label → Prop
  | .writer (.outside database) => database.events = s.writers.store.events
  | _ => True

/-- An insert that succeeds puts no event that the consumer asks for at or before the consumer's token. -/
def Ahead (s : State) : Label → Prop
  | .writer (.outside database) => database.events = s.writers.store.events
  | .writer (.proceed id) => ∀ session rows, s.writers.sessions id = some session →
      session.statement = some (.insertEvents rows) → (∃ result, s.writers.store.insertEvents rows = .ok result) →
      ∀ row ∈ rows.map EventRow.stored, PgEventRepo.passes filter row →
      ∀ key, codec.cursor "r" s.consumer.token = .ok (some key) → Direction.asc.passes key (row.receivedAt, row.id)
  | _ => True

variable {codec : CursorCodec} {filter : ListEventsFilter} {s after : State} {label : Label} {token : PageToken}

/-- The events the consumer asks for. -/
def wanted (filter : ListEventsFilter) (database : Database) : List EventRow :=
  database.events.filter (PgEventRepo.passes filter)

/-- A page of events that is read, between the keys its tokens stand for. -/
theorem read_events (lawful : codec.Lawful) {pageRead : PageRead} {page : ListPage Event}
    (issued : ∀ key, codec.cursor "r" token = .ok (some key) → Stored key.1)
    (succeeds : ListOperation.read (.events filter) codec pageRead token = some (.ok page)) :
    ∃ lower upper kept, codec.cursor "r" token = .ok lower ∧
      Keyset.Segment PgEventRepo.pageQuery.place (wanted filter pageRead.database)
        (lower.map Direction.asc.place) (upper.map Direction.asc.place) kept ∧
      page.items = kept.map EventRow.toEvent ∧ (page.nextPageToken.isEmpty ↔ upper = none) ∧
      (∀ key, codec.cursor "r" page.nextPageToken = .ok key → key = upper) ∧ ∀ key ∈ upper, Stored key.1 :=
  PageQuery.segment_of_read lawful (clampPageSize_pos pageRead.pageSize)
    (ListOperation.rows_nodup (.events filter)) (fun _ => ListOperation.rows_stored (.events filter)) issued succeeds

/-- What the consumer has not received comes after the key its token stands for. -/
def Current (codec : CursorCodec) (filter : ListEventsFilter) (s : State) : Prop :=
  ∀ cursor, codec.cursor "r" s.consumer.token = .ok cursor → (∀ key ∈ cursor, Stored key.1) ∧
    Keyset.Tailed PgEventRepo.pageQuery.place (wanted filter s.writers.store) (cursor.map Direction.asc.place)
      fun row => row.toEvent ∈ s.consumer.received

namespace Current

/-- A page moves the token over the events it returns, and the last one leaves nothing out. -/
theorem page (current : Current codec filter s) (lawful : codec.Lawful) {pageSize : Int32}
    {snapshots : ℕ → Except Fault Contents} {page : ListPage Event}
    (succeeds : s.read codec filter pageSize snapshots = some (.ok page)) :
    Current codec filter { s with consumer := s.consumer.receive page } ∧
      (page.nextPageToken.isEmpty → ∀ row ∈ wanted filter s.writers.store,
        row.toEvent ∈ s.consumer.received ++ page.items) := by
  obtain ⟨lower, upper, kept, decoded, segment, items, empty, next, stored⟩ :=
    read_events lawful (fun key read => (current _ read).1 key rfl) succeeds
  obtain ⟨issued, tailed⟩ := current lower decoded
  have earlier (row : EventRow) (_ : row ∈ wanted filter s.writers.store)
      (seen : row.toEvent ∈ s.consumer.received) : row.toEvent ∈ s.consumer.received ++ page.items :=
    List.mem_append_left _ seen
  have returned (row : EventRow) (member : row ∈ kept) : row.toEvent ∈ s.consumer.received ++ page.items := by
    rw [items]
    exact List.mem_append_right _ (List.mem_map_of_mem member)
  obtain ⟨moved, complete⟩ := tailed.read segment earlier returned
  refine ⟨fun cursor read => ?_, fun drained => complete (by rw [empty.mp drained]; rfl)⟩
  obtain rfl := CursorCodec.cursor_advance decoded empty next read
  refine ⟨fun key held => ?_, ?_⟩
  · exact (Option.or_eq_some_iff.mp held).elim (stored key) fun ⟨_, held⟩ => issued key held
  · cases upper <;> exact moved

/-- A writer's step leaves it so, if its insert stays ahead of the token. -/
theorem writer (current : Current codec filter s) {label : Autocommit.Label Answer EventRequest Database}
    {writers : Writers} (ahead : Ahead codec filter s (.writer label))
    (step : eventWriters.next s.writers label = some writers) :
    Current codec filter { s with writers := writers } := by
  intro cursor read
  obtain ⟨issued, tailed⟩ := current cursor read
  refine ⟨issued, ?_⟩
  have kept (same : writers.store.events = s.writers.store.events) : Keyset.Tailed PgEventRepo.pageQuery.place
      (wanted filter writers.store) (cursor.map Direction.asc.place) fun row => row.toEvent ∈ s.consumer.received := by
    rw [wanted, same]
    exact tailed
  rcases Autocommit.System.store_cases step with same | rfl | ⟨id, session, statement, result, rfl, found, about, ran⟩
  · exact kept (congrArg Database.events same)
  · exact kept ahead
  cases statement with
  | acquire =>
    have same : s.writers.store = writers.store := congrArg Prod.snd (Except.ok.inj ran)
    exact kept (congrArg Database.events same.symm)
  | insertEvents rows =>
    intro row member
    obtain ⟨inTable, passes⟩ := List.mem_filter.mp member
    rw [(Database.insertEvents_ok ran).2] at inTable
    rcases List.mem_append.mp inTable with old | new
    · exact tailed row (List.mem_filter.mpr ⟨old, passes⟩)
    · right
      cases cursor with
      | none => exact Keyset.after_none _
      | some key =>
        refine Keyset.after_some.mpr (Direction.place_lt.mpr ?_)
        exact ahead session rows found about ⟨_, ran⟩ row new passes key read

end Current

/-- Where inserts commit ahead of the consumer's token, nothing behind it is left out. -/
theorem current_of_reachable (lawful : codec.Lawful)
    (reached : (machine codec filter).Reachable (Ahead codec filter) s) : Current codec filter s := by
  refine reached.invariant ?_ ?_
  · rintro s ⟨_, start⟩ cursor read
    rw [start] at read
    obtain rfl := Except.ok.inj read
    exact ⟨nofun, fun row _ => .inr (Keyset.after_none _)⟩
  · intro s label after current ahead step
    cases label with
    | tick now =>
      simp only [machine, next] at step
      split at step
      · cases step
        exact current
      · contradiction
    | page pageSize snapshots =>
      simp only [machine, next] at step
      split at step
      · next page succeeds =>
        cases step
        exact (current.page lawful succeeds).1
      · cases step
        exact current
      · contradiction
    | writer label =>
      simp only [machine, next] at step
      split at step
      · obtain ⟨writers, moved, rfl⟩ := Option.map_eq_some_iff.mp step
        exact current.writer ahead moved
      · contradiction

/-- Every event the consumer asks for is returned by the time a page comes with an empty token. -/
def Complete (codec : CursorCodec) (filter : ListEventsFilter) (guard : State → Label → Prop) : Prop :=
  ∀ s, (machine codec filter).Reachable guard s → ∀ pageSize snapshots page,
    s.read codec filter pageSize snapshots = some (.ok page) → page.nextPageToken.isEmpty →
    ∀ row ∈ s.writers.store.events, PgEventRepo.passes filter row →
      row.toEvent ∈ s.consumer.received ++ page.items

/-- As long as inserts commit ahead of the consumer's token, every event is returned. -/
theorem drain_complete (lawful : codec.Lawful) : Complete codec filter (Ahead codec filter) := by
  intro s reached pageSize snapshots page succeeds drained row member passes
  exact ((current_of_reachable lawful reached).page lawful succeeds).2 drained row
    (List.mem_filter.mpr ⟨member, passes⟩)

theorem next_page {pageSize : Int32} {snapshots : ℕ → Except Fault Contents} {page : ListPage Event}
    (succeeds : s.read codec filter pageSize snapshots = some (.ok page)) :
    (machine codec filter).next s (.page pageSize snapshots) =
      some { s with consumer := s.consumer.receive page } := by
  simp only [machine, next, succeeds]

def bareSnapshots : ℕ → Except Fault Contents := fun _ => .ok fun _ => none

/-- What a page of one event answers, by the events that are left of the table. -/
theorem read_one (cursor : Option SortKey) (kept : List EventRow)
    (decoded : codec.cursor "r" s.consumer.token = .ok cursor)
    (remaining : PgEventRepo.pageQuery.remaining cursor (wanted filter s.writers.store) = kept)
    (sorted : (kept.map PgEventRepo.pageQuery.sortKey).Pairwise fun one other => Direction.asc.ordered one other) :
    s.read codec filter 1 bareSnapshots =
      some (.ok ⟨(Keyset.cut 1 (kept.take 2)).1.map EventRow.toEvent, (Keyset.cut 1 (kept.take 2)).2.elim .empty
        fun row => codec.encodeCursor "r" row.receivedAt row.id⟩) :=
  PageQuery.read_of_remaining decoded remaining sorted

def beginning (database : Database) : State := ⟨⟨database, fun _ => none⟩, 0, ⟨.empty, []⟩⟩

theorem beginning_start (database : Database) : (machine codec filter).Start (beginning database) := ⟨rfl, rfl⟩

/-- The consumer reads the two events of `tied` by pages of one. -/
theorem drain_complete_tied :
    (tiedEvent ⟨1⟩).toEvent ∈ [(tiedEvent ⟨1⟩).toEvent] ++ [(tiedEvent ⟨2⟩).toEvent] ∧
      (tiedEvent ⟨2⟩).toEvent ∈ [(tiedEvent ⟨1⟩).toEvent] ++ [(tiedEvent ⟨2⟩).toEvent] := by
  have first : (beginning tied).read tiedCodec everything 1 bareSnapshots = some (.ok (tiedPage ⟨1⟩ ⟨tiedToken⟩)) :=
    read_one none tied.events (cursor_empty _) rfl (by decide)
  let later : State := { beginning tied with consumer := (beginning tied).consumer.receive (tiedPage ⟨1⟩ ⟨tiedToken⟩) }
  have reached : (machine tiedCodec everything).Reachable (Ahead tiedCodec everything) later :=
    (Machine.Reachable.start (beginning_start tied)).step (next_page first) trivial
  have second : later.read tiedCodec everything 1 bareSnapshots = some (.ok (tiedPage ⟨2⟩ .empty)) :=
    read_one (some (0, ⟨1⟩)) [tiedEvent ⟨2⟩] rfl rfl (by decide)
  have complete := drain_complete tiedCodec_lawful _ reached _ _ _ second (by decide)
  exact ⟨complete (tiedEvent ⟨1⟩) (.head _) rfl, complete (tiedEvent ⟨2⟩) (.tail _ (.head _)) rfl⟩

/-- The tables before any event. -/
def quiet : Database := { tied with
  events := [], events_nodup := Database.empty.events_nodup, event_stored := Database.empty.event_stored }

def opened : EventRecord := ⟨⟨7⟩, none, ⟨"OPEN"⟩, 0, "web", .object []⟩

def lateJson : List UInt8 :=
  bytes "\x7b\"r\":\"1970-01-01T00:00:00.000001+00:00\",\"i\":\"00000000-0000-0000-0000-000000000002\"\x7d"

def lateToken : String :=
  "eyJyIjoiMTk3MC0wMS0wMVQwMDowMDowMC4wMDAwMDErMDA6MDAiLCJpIjoiMDAwMDAwMDAtMDAwMC0wMDAwLTAwMDAtMDAwMDAwMDAwMDAyIn0"

/-- What the token of the second event goes through. -/
def lateCodec : CursorCodec :=
  .sole "r" (1000, ⟨2⟩) "1970-01-01T00:00:00.000001+00:00" lateToken lateJson

theorem lateCodec_lawful : lateCodec.Lawful :=
  CursorCodec.sole_lawful (by decide) (by decide) ⟨by decide +kernel, by decide +kernel⟩

/-- One event is stamped; two later ones are stamped and inserted before it is. -/
def overtaken : List Label :=
  [.writer (.begin 0 (.record opened)), .writer (.proceed 0), .writer (.answer 0 .nowV7 ⟨1⟩),
    .writer (.answer 0 .now 0), .tick 1000, .writer (.begin 1 (.recordBatch [opened, opened])),
    .writer (.proceed 1), .writer (.answer 1 .now 1000), .writer (.answer 1 .nowV7 ⟨2⟩),
    .writer (.answer 1 .nowV7 ⟨3⟩), .writer (.proceed 1)]

/-- The time and the id of each event, in the order they were inserted. -/
def keys (database : Database) : List SortKey := database.events.map PgEventRepo.pageQuery.sortKey

theorem wanted_everything (database : Database) : wanted everything database = database.events :=
  List.filter_eq_self.mpr fun _ _ => rfl

/-- An event that is inserted after a later one has been read is never returned. -/
theorem drain_incomplete : ¬ Complete lateCodec everything EventsOnly := by
  intro complete
  obtain ⟨s, replayed, holds⟩ := Option.any_eq_true _ _ |>.mp (show
    ((machine lateCodec everything).replay Machine.anything (beginning quiet) overtaken).any (fun s =>
      keys s.writers.store = [(1000, ⟨2⟩), (1000, ⟨3⟩)] ∧ s.consumer.token = .empty ∧ s.consumer.received.isEmpty ∧
        (eventWriters.next s.writers (.proceed 0)).any fun writers =>
          keys writers.store = [(1000, ⟨2⟩), (1000, ⟨3⟩), (0, ⟨1⟩)]) from by decide +kernel)
  obtain ⟨inserted, fresh, nothing, step⟩ := of_decide_eq_true holds
  obtain ⟨writers, proceeds, late⟩ := Option.any_eq_true _ _ |>.mp step
  have reached : (machine lateCodec everything).Reachable EventsOnly s := by
    refine ⟨beginning quiet, overtaken, beginning_start quiet, (Machine.run_of_replay _ replayed).narrow ?_⟩
    simp [overtaken, EventsOnly]
  -- The consumer gets the first of the two later events.
  obtain ⟨one, two, events, early, second⟩ : ∃ one two, s.writers.store.events = [one, two] ∧
      PgEventRepo.pageQuery.sortKey one = (1000, ⟨2⟩) ∧ PgEventRepo.pageQuery.sortKey two = (1000, ⟨3⟩) := by
    simpa [keys, List.map_eq_cons_iff] using inserted
  let page : ListPage Event := ⟨[one.toEvent], lateCodec.encodeCursor "r" one.receivedAt one.id⟩
  have first : s.read lateCodec everything 1 bareSnapshots = some (.ok page) := by
    refine read_one none [one, two] ?_ ?_ ?_
    · rw [fresh, cursor_empty]
    · rw [wanted_everything, events]
      rfl
    · simp only [List.map_cons, List.map_nil, early, second]
      decide
  have token : (s.consumer.receive page).token = ⟨lateToken⟩ := by
    obtain ⟨time, id⟩ := Prod.mk.inj early
    have issued : page.nextPageToken = ⟨lateToken⟩ :=
      (congr (congrArg (lateCodec.encodeCursor "r") time) id).trans rfl
    rw [Consumer.receive, issued]
    rfl
  let turned : State := { s with consumer := s.consumer.receive page }
  have inserts : (machine lateCodec everything).next turned (.writer (.proceed 0)) =
      some { turned with writers := writers } := by
    simp [machine, next, State.onClock, turned, proceeds]
  have overtook : (machine lateCodec everything).Reachable EventsOnly { turned with writers := writers } :=
    (reached.step (next_page first) trivial).step inserts trivial
  -- The other comes with the next page, past the one that was inserted in between.
  obtain ⟨taken, other, behind, grown, takenKey, otherKey, behindKey⟩ : ∃ one two three,
      writers.store.events = [one, two, three] ∧ PgEventRepo.pageQuery.sortKey one = (1000, ⟨2⟩) ∧
      PgEventRepo.pageQuery.sortKey two = (1000, ⟨3⟩) ∧ PgEventRepo.pageQuery.sortKey three = (0, ⟨1⟩) := by
    simpa [keys, List.map_eq_cons_iff] using of_decide_eq_true late
  have last : State.read lateCodec everything { turned with writers := writers } 1 bareSnapshots =
      some (.ok ⟨[other.toEvent], .empty⟩) := by
    refine read_one (some (1000, ⟨2⟩)) [other] ?_ ?_ (List.pairwise_singleton _ _)
    · rw [token]
      rfl
    · rw [wanted_everything, grown]
      simp only [PageQuery.remaining, List.filter_cons, List.filter_nil, Option.all_some, takenKey, otherKey, behindKey]
      rfl
  have returned := complete _ overtook _ _ _ last rfl behind (by simp [grown]) rfl
  simp only [turned, Consumer.receive, List.isEmpty_iff.mp nothing] at returned
  have id (row : EventRow) {key : SortKey} (same : PgEventRepo.pageQuery.sortKey row = key) :
      row.toEvent.id = key.2 := (Prod.mk.inj same).2
  have missed := List.mem_map_of_mem (f := Event.id) returned
  simp only [page, List.nil_append, List.cons_append, List.map_cons, List.map_nil, id _ early, id _ otherKey, id _ behindKey]
    at missed
  exact absurd missed (by decide)

end Headlines.Soundness.EventDrain
