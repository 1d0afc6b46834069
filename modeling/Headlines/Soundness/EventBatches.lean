import Headlines.Api.Recorded
import Headlines.Autocommit.Alone
import Headlines.Autocommit.Past
import Headlines.ToMathlib.Forall2

/-! # Batches of events

A batch is one `INSERT`, so it is stored as a whole or not at all; and whatever is stored can be read back, so a
call that has stored its events does not fail any more. Rows and answers stand in the order of the request.
-/

namespace Headlines.Soundness.EventBatches

open Core Store Api Autocommit
open ReadCommitted (Fault)

abbrev Past := List (Autocommit.Event EventStatement.Result Answer)

abbrev State := Autocommit.State EventStatement.Result Answer EventCall (Except Status EventResponse) Database

/-- The rows that a call has inserted, by what it has been told. -/
def inserted : Past → List EventRow
  | [] => []
  | .ran (.insertEvents _) (.ok rows) :: past => inserted past ++ rows
  | _ :: past => inserted past

/-- The rows that a session has inserted. -/
def written (s : State) (id : ℕ) : List EventRow := (s.sessions id).elim [] fun session => inserted session.past

def caller : EventCall → Subject
  | .recordEvent subject _ _ | .recordEventBatch subject _ _ => subject

/-- A row that the subject may write: a user its own, a system any. -/
def Owned (subject : Subject) (row : EventRow) : Prop := ∀ user key, subject = .user user key → row.userId = user

/-- An event with the values of a request. -/
structure Answers (service : EventService) (request : RecordEventRequest) (event : ProtoEvent) : Prop where
  userId : ∃ id, service.parsers.uuid request.userId = .ok id ∧ event.userId = id.display
  articleId : ∃ id, service.parsers.uuid request.articleId = .ok id ∧ event.articleId = id.display
  type : event.type = request.type
  surface : event.surface = request.surface
  properties : event.properties = request.properties
  occurredAt : ∃ time, request.occurredAt.bind protoToChrono = some time ∧
    event.occurredAt = some (tsToProto time.instant.stored)

/-- A batch that is stored row by row, in the order of its events, and answered so. -/
structure Stores (service : EventService) (request : RecordEventBatchRequest) (rows : List EventRow)
    (response : RecordEventBatchResponse) : Prop where
  length : rows.length = request.events.length
  storedCount : response.storedCount.toInt = request.events.length
  recorded : List.Forall₂ (fun row event => eventToProto row.toEvent = .ok event) rows response.recorded
  answers : List.Forall₂ (Answers service) request.events response.recorded

/-- A step adds to the log what its session writes, and nothing else. -/
def Accounted (s after : State) : Prop :=
  (after.store.events = s.store.events ∧ ∀ id, written after id = written s id) ∨
    ∃ id rows, after.store.events = s.store.events ++ rows ∧ written after id = written s id ++ rows ∧
      ∀ other, other ≠ id → written after other = written s other

/-- What a session is told of an insert is what the insert adds to the log. -/
theorem inserted_of_told {session : Session EventStatement.Result Answer EventCall (Except Status EventResponse)}
    {event : Autocommit.Event EventStatement.Result Answer} {before after : Database}
    (told : session.Told EventStatement.send before after event) :
    ∃ rows, after.events = before.events ++ rows ∧ ∀ past, inserted (event :: past) = inserted past ++ rows := by
  have nothing (same : after = before) : after.events = before.events ++ [] := by
    rw [same, List.append_nil]
  cases event with
  | asked question value => exact ⟨[], nothing told, fun _ => (List.append_nil _).symm⟩
  | ran statement outcome =>
    cases outcome with
    | error fault =>
      refine ⟨[], nothing told.2, fun _ => ?_⟩
      cases statement <;> exact (List.append_nil _).symm
    | ok result =>
      have ran := (EventStatement.send_ok told.2).2
      cases statement with
      | acquire =>
        have same := congrArg Prod.snd (Except.ok.inj ran)
        exact ⟨[], nothing same.symm, fun _ => (List.append_nil _).symm⟩
      | insertEvents rows =>
        obtain ⟨rfl, added⟩ := Database.insertEvents_ok ran
        exact ⟨_, added, fun _ => rfl⟩

theorem accounted {service : EventService} {s after : State} {label : Label Answer EventCall Database}
    (step : service.server.next s label = some after) (own : ∀ database, label ≠ .outside database) :
    Accounted s after := by
  obtain ⟨store, rfl, -⟩ | ⟨id, call, rfl, unused, rfl⟩ | ⟨id, session, program, event, store, found, rfl, told, -⟩ :=
    System.step_cases step
  · exact absurd rfl (own store)
  · refine .inl ⟨rfl, fun other => ?_⟩
    rw [written, written, State.move_sessions]
    split
    · next same =>
      rw [same, unused]
      rfl
    · rfl
  · obtain ⟨rows, added, grows⟩ := inserted_of_told told
    refine .inr ⟨id, rows, added, ?_, fun other differs => ?_⟩
    · rw [written, written, State.move_sessions, if_pos rfl, found]
      exact grows session.past
    · rw [written, written, State.move_sessions, if_neg differs]

/-! ## What a call has been told -/

/-- A call inserts once, and only what its caller may write. -/
def Justified (call : EventCall) (past : Past) : EventStatement → Prop
  | .acquire => True
  | .insertEvents rows => inserted past = [] ∧ ∀ row ∈ rows, Owned (caller call) row

/-- Inserts were answered with their rows, as the columns keep them. -/
def Truthful (past : Past) : Prop := ∀ rows returned, .ran (.insertEvents rows) (.ok returned) ∈ past →
  8 * rows.length < 2 ^ 16 ∧ returned = rows.map EventRow.stored

/-- A genuine past is truthful, and what it inserts its caller may write. -/
theorem truthful_of_genuine {call : EventCall} {past : Past}
    (genuine : Genuine EventStatement.send (Justified call) past) :
    Truthful past ∧ ∀ row ∈ inserted past, Owned (caller call) row := by
  induction past with
  | nil => exact ⟨nofun, nofun⟩
  | cons event past ih =>
    cases event with
    | asked question value =>
      obtain ⟨truthful, owned⟩ := ih genuine
      refine ⟨fun rows returned member => truthful rows returned ?_, owned⟩
      simpa using member
    | ran statement outcome =>
      obtain ⟨justified, answered, genuine⟩ := genuine
      obtain ⟨truthful, owned⟩ := ih genuine
      have told (rows returned) (same : (.ran statement outcome : Autocommit.Event EventStatement.Result Answer) =
          .ran (.insertEvents rows) (.ok returned)) :
          8 * rows.length < 2 ^ 16 ∧ returned = rows.map EventRow.stored := by
        cases same
        obtain ⟨before, after, sent⟩ := answered _ rfl
        obtain ⟨fits, ran⟩ := EventStatement.send_ok sent
        exact ⟨fits, (Database.insertEvents_ok ran).1⟩
      refine ⟨fun rows returned member => ?_, ?_⟩
      · rcases List.mem_cons.mp member with same | earlier
        · exact told rows returned same.symm
        · exact truthful rows returned earlier
      · cases statement with
        | acquire => exact owned
        | insertEvents rows =>
          cases outcome with
          | error fault => exact owned
          | ok returned =>
            obtain ⟨-, rfl⟩ := told rows returned rfl
            intro row member
            rcases List.mem_append.mp member with old | new
            · exact owned row old
            · obtain ⟨given, sent, rfl⟩ := List.mem_map.mp new
              exact justified.2 given sent

/-! ## The handlers -/

section Handlers

variable {service : EventService} {call : EventCall} {records : List EventRecord} {past : Past}

/-- The rows of a batch carry the values of its records, and one time. -/
def Rows (now : Timestamp) (records : List EventRecord) (rows : List EventRow) : Prop :=
  List.Forall₂ (fun record row => ∃ id, row = PgEventRepo.insertEvent record id now) records rows

/-- Asking tells nothing of the log. -/
theorem ask_ends (question : Question) (fresh : inserted past = []) :
    Throwing.Ends (Justified call) (fun _ past => inserted past = []) (fun _ past => inserted past = [])
      (Throwing.ask question : EventDb _) past :=
  .ask question fun _ => fresh

theorem inserts_ends (now : Timestamp) (fresh : inserted past = []) :
    Throwing.Ends (Justified call) (fun rows past => inserted past = [] ∧ Rows now records rows)
      (fun _ past => inserted past = []) (PgEventRepo.inserts now records) past := by
  induction records generalizing past with
  | nil => exact .pure ⟨fresh, .nil⟩
  | cons record rest ih =>
    refine (ask_ends _ fresh).bind fun id past fresh => ?_
    refine (ih fresh).bind fun rows past made => .pure ⟨made.1, .cons ⟨id, rfl⟩ made.2⟩

theorem get_ends (fresh : inserted past = []) :
    Throwing.Ends (Justified call) (fun _ past => inserted past = []) (fun _ past => inserted past = [])
      PgEventRepo.get past := .execute _ trivial (fun _ => fresh) fun _ => fresh

/-- A batch is stored by one insert, or it fails before. -/
theorem recordBatch_ends (fresh : inserted past = []) (nonempty : records ≠ [])
    (owned : ∀ record ∈ records, ∀ id now, Owned (caller call) (PgEventRepo.insertEvent record id now)) :
    Throwing.Ends (Justified call) (fun events past => ∃ now rows, Rows now records rows ∧
        .ran (.insertEvents rows) (.ok (inserted past)) ∈ past ∧ events = (inserted past).map EventRow.toEvent)
      (fun _ past => inserted past = []) (PgEventRepo.recordBatch records) past := by
  rw [PgEventRepo.recordBatch, if_neg (by simpa using nonempty)]
  refine (get_ends fresh).bind fun _ past fresh => ?_
  refine (ask_ends _ fresh).bind fun now past fresh => ?_
  refine (inserts_ends now fresh).bind fun rows past made => ?_
  have justified : Justified call past (.insertEvents rows) := by
    refine ⟨made.1, fun row member => ?_⟩
    obtain ⟨record, given, id, rfl⟩ := made.2.exists_left member
    exact owned record given id now
  have executed : Throwing.Ends (Justified call) (fun returned past => inserted past = returned ∧
        .ran (.insertEvents rows) (.ok returned) ∈ past) (fun _ past => inserted past = [])
      (EventDb.execute (.insertEvents rows) "insert event batch") past := by
    refine .execute _ justified (fun returned => ⟨?_, List.mem_cons_self⟩) fun _ => made.1
    rw [inserted, made.1, List.nil_append]
  refine executed.bind fun returned past ⟨same, ran⟩ => .pure ⟨now, rows, made.2, ?_⟩
  rw [same]
  exact ⟨ran, rfl⟩

theorem check_ends {outcome : Except HeadlinesError ρ} (fresh : inserted past = []) :
    Throwing.Ends (Justified call) (fun value past => outcome = .ok value ∧ inserted past = [])
      (fun _ past => inserted past = []) (EventHandler.check outcome) past :=
  .ofExcept (fun _ same => ⟨Except.mapError_eq_ok.mp same, fresh⟩) fun _ _ => fresh

theorem require_ends {check : Bool} {error : Status} (fresh : inserted past = []) :
    Throwing.Ends (Justified call) (fun _ past => check ∧ inserted past = []) (fun _ past => inserted past = [])
      (Throwing.require check error : EventHandler Unit) past :=
  .require (fun holds => ⟨holds, fresh⟩) fresh

/-- Code that stores nothing where it fails. -/
theorem unstored {ε : Type} {post : ρ → Past → Prop}
    {program : Throwing EventStatement.Result Answer ε ρ}
    (ends : Throwing.Ends (Justified call) post (fun _ past => inserted past = []) program past) :
    Throwing.Ends (Justified call) post (fun _ past => Truthful past → inserted past = []) program past :=
  ends.mono (fun _ _ holds => holds) fun _ _ fresh _ => fresh

/-- The answer for a prepared record has the values of its request. -/
theorem answers_of_prepared {subject : Subject} {now : DateTime} {request : RecordEventRequest} {record : EventRecord}
    (prepared : Prepared service subject now request record) (id : Uuid) (receivedAt : Timestamp) :
    Answers service request (Prepared.answer request record id receivedAt) := by
  obtain ⟨articleId, article, same⟩ := prepared.articleId
  obtain ⟨time, occurred, -, instant⟩ := prepared.occurredAt
  exact {
    userId := ⟨record.userId, prepared.userId, rfl⟩
    articleId := ⟨articleId, article, by rw [Prepared.answer, same]; rfl⟩
    type := rfl
    surface := rfl
    properties := rfl
    occurredAt := ⟨time, occurred, by rw [Prepared.answer, instant]⟩ }

/-- The rows of prepared records can be read back. -/
theorem read_back {subject : Subject} {now : DateTime} {receivedAt : Timestamp} {requests : List RecordEventRequest}
    {rows : List EventRow} (prepared : List.Forall₂ (Prepared service subject now) requests records)
    (made : Rows receivedAt records rows) :
    ∃ events, ((rows.map EventRow.stored).map EventRow.toEvent).mapM eventToProto = .ok events ∧
      List.Forall₂ (Answers service) requests events := by
  induction prepared generalizing rows with
  | nil =>
    cases made
    exact ⟨[], rfl, .nil⟩
  | cons first rest ih =>
    obtain _ | ⟨⟨id, rfl⟩, made⟩ := made
    obtain ⟨events, read, answers⟩ := ih made
    refine ⟨_ :: events, ?_, .cons (answers_of_prepared first id receivedAt) answers⟩
    exact Except.mapM_eq_ok.mpr (.cons (first.eventToProto id receivedAt) (Except.mapM_eq_ok.mp read))

/-- A record that passed the check on its owner is one its caller may write. -/
theorem owned_of_prepared {subject : Subject} {now : DateTime} {request : RecordEventRequest} {record : EventRecord}
    (prepared : Prepared service subject now request record) (id : Uuid) (receivedAt : Timestamp) :
    Owned subject (PgEventRepo.insertEvent record id receivedAt) := by
  rintro user key rfl
  have own := prepared.own
  simp only [ownEvent] at own
  split at own
  · assumption
  · contradiction

theorem recordEventBatch_ends {subject : Subject} {time : Except String Tso} {request : RecordEventBatchRequest}
    (called : caller call = subject) (fresh : inserted past = []) :
    Throwing.Ends (Justified call) (fun response past => Truthful past → Stores service request (inserted past) response)
      (fun _ past => Truthful past → inserted past = []) (EventService.recordEventBatch service subject time request)
      past := by
  refine (unstored (require_ends fresh)).bind fun _ past ⟨_, fresh⟩ => ?_
  refine (unstored (require_ends fresh)).bind fun _ past ⟨nonempty, fresh⟩ => ?_
  refine (unstored (require_ends fresh)).bind fun _ past ⟨_, fresh⟩ => ?_
  refine (unstored (check_ends fresh)).bind fun now past ⟨_, fresh⟩ => ?_
  refine (unstored (check_ends fresh)).bind fun records past ⟨mapped, fresh⟩ => ?_
  have prepared : List.Forall₂ (Prepared service subject now) request.events records :=
    (Except.mapM_eq_ok.mp mapped).imp fun _ _ => prepared_of_prepareEvent
  have owned (record) (member : record ∈ records) (id : Uuid) (now : Timestamp) :
      Owned (caller call) (PgEventRepo.insertEvent record id now) := by
    obtain ⟨given, -, prepared⟩ := prepared.exists_left member
    exact called ▸ owned_of_prepared prepared id now
  have nonempty : records ≠ [] := by
    rintro rfl
    rw [List.forall₂_nil_right_iff.mp prepared] at nonempty
    contradiction
  refine (unstored (.adapt (recordBatch_ends fresh nonempty owned))).bind
    fun _ past ⟨receivedAt, rows, made, ran, same⟩ => ?_
  subst same
  -- From here on the events are stored: what is left of the handler must not fail.
  have read (truthful : Truthful past) : ∃ events,
      ((inserted past).map EventRow.toEvent).mapM eventToProto = .ok events ∧
        List.Forall₂ (Answers service) request.events events := by
    rw [(truthful rows _ ran).2]
    exact read_back prepared made
  have converted : Throwing.Ends (Justified call)
      (fun events later => later = past ∧ ((inserted past).map EventRow.toEvent).mapM eventToProto = .ok events)
      (fun _ past => Truthful past → inserted past = [])
      (EventHandler.check (((inserted past).map EventRow.toEvent).mapM eventToProto)) past := by
    refine .ofExcept (fun events same => ⟨rfl, Except.mapError_eq_ok.mp same⟩) fun error failed truthful => ?_
    obtain ⟨events, same, -⟩ := read truthful
    rw [same] at failed
    contradiction
  refine converted.bind fun events later ⟨unchanged, same⟩ => .pure fun truthful => ?_
  subst unchanged
  obtain ⟨answered, again, answers⟩ := read truthful
  obtain rfl := Except.ok.inj (same.symm.trans again)
  obtain ⟨fits, stored⟩ := truthful rows _ ran
  have length : (inserted later).length = request.events.length := by
    rw [stored, List.length_map, ← made.length_eq, prepared.length_eq]
  have count : rows.length = (inserted later).length := by
    rw [stored, List.length_map]
  exact {
    length := length
    storedCount := by
      rw [List.length_map, length, Int32.toInt_ofNat_of_lt (by omega)]
    recorded := List.forall₂_map_left_iff.mp (Except.mapM_eq_ok.mp same)
    answers := answers }

/-- The insert of the only event, or none. -/
theorem record_ends {record : EventRecord} (fresh : inserted past = [])
    (owned : ∀ id now, Owned (caller call) (PgEventRepo.insertEvent record id now)) :
    Throwing.Ends (Justified call) (fun event past => ∃ id now row,
        .ran (.insertEvents [PgEventRepo.insertEvent record id now]) (.ok (inserted past)) ∈ past ∧
        (inserted past).head? = some row ∧ event = row.toEvent)
      (fun _ past => inserted past = []) (PgEventRepo.record record) past := by
  refine (get_ends fresh).bind fun _ past fresh => ?_
  have stamped : Throwing.Ends (Justified call) (fun _ past => inserted past = []) (fun _ past => inserted past = [])
      PgEventRepo.newIdAndNow past :=
    (ask_ends _ fresh).bind fun _ _ fresh => (ask_ends _ fresh).bind fun _ _ fresh => .pure fresh
  refine stamped.bind fun (id, now) past fresh => ?_
  have justified : Justified call past (.insertEvents [PgEventRepo.insertEvent record id now]) := by
    refine ⟨fresh, fun row member => ?_⟩
    obtain rfl := List.mem_singleton.mp member
    exact owned id now
  have executed : Throwing.Ends (Justified call) (fun returned past => inserted past = returned ∧
        .ran (.insertEvents [PgEventRepo.insertEvent record id now]) (.ok returned) ∈ past)
      (fun _ past => inserted past = [])
      (EventDb.execute (.insertEvents [PgEventRepo.insertEvent record id now]) "insert event") past := by
    refine .execute _ justified (fun returned => ⟨?_, List.mem_cons_self⟩) fun _ => fresh
    rw [inserted, fresh, List.nil_append]
  refine executed.bind fun returned past ⟨same, ran⟩ => ?_
  subst same
  have only : Throwing.Ends (Justified call) (fun row later => later = past ∧ (inserted past).head? = some row)
      (fun _ past => inserted past = [])
      (Throwing.okOr (inserted past).head? (HeadlinesError.internal "insert event" .notFound)) past :=
    .okOr (fun _ found => ⟨rfl, found⟩) fun missing => List.head?_eq_none_iff.mp missing
  refine only.bind fun row later ⟨unchanged, found⟩ => ?_
  subst unchanged
  exact .pure ⟨id, now, row, ran, found, rfl⟩

/-- One event is stored by one insert, or the call fails before. -/
theorem recordEvent_ends {subject : Subject} {time : Except String Tso} {request : RecordEventRequest}
    (called : caller call = subject) (fresh : inserted past = []) :
    Throwing.Ends (Justified call) (fun event past => Truthful past → ∃ row, inserted past = [row] ∧
        Stored row.receivedAt ∧ eventToProto row.toEvent = .ok event ∧ Answers service request event ∧
        ∃ now record, Prepared service subject now request record)
      (fun _ past => Truthful past → inserted past = []) (EventService.recordEvent service subject time request) past := by
  refine (unstored (require_ends fresh)).bind fun _ past ⟨_, fresh⟩ => ?_
  refine (unstored (check_ends fresh)).bind fun now past ⟨_, fresh⟩ => ?_
  refine (unstored (check_ends fresh)).bind fun record past ⟨accepted, fresh⟩ => ?_
  have prepared := prepared_of_prepareEvent accepted
  have owned (id : Uuid) (now : Timestamp) := called ▸ owned_of_prepared prepared id now
  refine (unstored (.adapt (record_ends fresh owned))).bind fun _ past ⟨id, receivedAt, row, ran, first, same⟩ => ?_
  subst same
  have read (truthful : Truthful past) : inserted past = [row] ∧ Stored row.receivedAt ∧
      eventToProto row.toEvent = .ok (Prepared.answer request record id receivedAt) := by
    rw [(truthful _ _ ran).2] at first ⊢
    obtain rfl := Option.some.inj first
    exact ⟨rfl, Timestamp.stored_stored _, prepared.eventToProto id receivedAt⟩
  refine .ofExcept (fun event same truthful => ?_) fun error failed truthful => ?_
  · obtain ⟨only, stored, answered⟩ := read truthful
    have converted := Except.mapError_eq_ok.mp same
    obtain rfl := Except.ok.inj (converted.symm.trans answered)
    exact ⟨row, only, stored, answered, answers_of_prepared prepared id receivedAt, now, record, prepared⟩
  · rw [(read truthful).2.2] at failed
    contradiction

end Handlers

/-- What the end of a call says of what it has stored. -/
def Concluded (service : EventService) (call : EventCall) (outcome : Except Status EventResponse) (past : Past) : Prop :=
  match call, outcome with
  | .recordEvent subject _ request, .ok (.event event) => ∃ row, inserted past = [row] ∧ Stored row.receivedAt ∧
      eventToProto row.toEvent = .ok event ∧ Answers service request event ∧
      ∃ now record, Prepared service subject now request record
  | .recordEventBatch _ _ request, .ok (.batch response) => Stores service request (inserted past) response
  | _, .ok _ => False
  | _, .error _ => inserted past = []

theorem verified (service : EventService) (call : EventCall) :
    (service.server.program call).Safe (Justified call)
      (fun outcome past => Truthful past → Concluded service call outcome past) [] := by
  cases call with
  | recordEvent subject time request => exact (Throwing.Ends.map (recordEvent_ends rfl rfl)).safe
  | recordEventBatch subject time request => exact (Throwing.Ends.map (recordEventBatch_ends rfl rfl)).safe

section Reached

variable {service : EventService} {initial : Database → Prop} {s : State} {id : ℕ}
  (reached : (service.server.machine initial).Reachable Machine.anything s)

include reached

/-- What a session has inserted its caller may write, and at its end its answer says what was stored. -/
theorem heard {session : Session EventStatement.Result Answer EventCall (Except Status EventResponse)}
    (found : s.sessions id = some session) : (∀ row ∈ written s id, Owned (caller session.request) row) ∧
      ∀ outcome, session.program = .done outcome → Concluded service session.request outcome session.past := by
  have concludes := System.concludes (verified service) reached
  obtain ⟨truthful, owned⟩ := truthful_of_genuine (System.genuine (verified service) reached found)
  refine ⟨?_, fun outcome ended => ?_⟩
  · rw [written, found]
    exact owned
  · obtain ⟨call, program, past⟩ := session
    obtain rfl : program = .done outcome := ended
    exact concludes.done found truthful

/-- An event that was accepted is one row of the log, which is answered with the values of its request. -/
theorem recorded {subject : Subject} {time : Except String Tso} {request : RecordEventRequest}
    {response : EventResponse} {past : Past}
    (found : s.sessions id = some ⟨.recordEvent subject time request, .done (.ok response), past⟩) :
    ∃ row event, response = .event event ∧ written s id = [row] ∧ Stored row.receivedAt ∧
      eventToProto row.toEvent = .ok event ∧ Answers service request event ∧ ∃ now record, Prepared service subject now request record := by
  have concluded := (heard reached found).2 _ rfl
  cases response with
  | batch batch => exact concluded.elim
  | event event =>
    obtain ⟨row, only, kept⟩ := concluded
    exact ⟨row, event, rfl, by rw [written, found]; exact only, kept⟩

end Reached

/-- In every state that calls can reach together, a call that has failed has stored nothing, a batch that has
succeeded has stored its events and answered with them in their order, and no user has stored an event of another. -/
theorem event_batches {service : EventService} {initial : Database → Prop} {s : State}
    (reached : (service.server.machine initial).Reachable Machine.anything s) :
    (∀ label after, service.server.next s label = some after → (∀ database, label ≠ .outside database) →
      Accounted s after) ∧
    (∀ id call error past, s.sessions id = some ⟨call, .done (.error error), past⟩ → written s id = []) ∧
    (∀ id subject time request response past,
      s.sessions id = some ⟨.recordEventBatch subject time request, .done (.ok response), past⟩ →
      ∃ batch, response = .batch batch ∧ Stores service request (written s id) batch) ∧
    ∀ id session, s.sessions id = some session → ∀ row ∈ written s id, Owned (caller session.request) row := by
  refine ⟨fun _ _ => accounted, fun id call error past found => ?_, fun id subject time request response past found => ?_,
    fun id session found => (heard reached found).1⟩
  · have concluded := (heard reached found).2 _ rfl
    rw [written, found]
    cases call <;> exact concluded
  · have concluded := (heard reached found).2 _ rfl
    rw [written, found]
    cases response with
    | event event => exact concluded.elim
    | batch batch => exact ⟨batch, rfl, concluded⟩

/-- Two likes of a user are stored and answered. -/
theorem event_batches_likes :
    ∃ s past response, s.sessions 0 = some ⟨.recordEventBatch Sample.reader (.ok .zero) ⟨[Sample.like, Sample.like]⟩,
        .done (.ok response), past⟩ ∧ (written s 0).length = 2 ∧
      (∀ row ∈ written s 0, row.userId = Sample.account) ∧
      ∃ batch, response = .batch batch ∧ Stores Sample.eventService ⟨[Sample.like, Sample.like]⟩ (written s 0) batch := by
  have unused : (⟨Sample.noRows, fun _ => none⟩ : State).sessions 0 = none := rfl
  obtain ⟨labels, after, past, run, -, ended, -⟩ := System.run_alone Sample.eventService.server (· = Sample.noRows)
    Sample.answers unused (.recordEventBatch Sample.reader (.ok .zero) ⟨[Sample.like, Sample.like]⟩)
  have reached : (Sample.eventService.server.machine (· = Sample.noRows)).Reachable Machine.anything after :=
    ⟨_, labels, ⟨rfl, rfl⟩, run⟩
  obtain ⟨-, -, stores, owned⟩ := event_batches reached
  obtain ⟨batch, same, stored⟩ := stores _ _ _ _ _ _ ended
  exact ⟨after, past, _, ended, stored.length, fun row member => owned 0 _ ended row member _ _ rfl, batch, same, stored⟩

end Headlines.Soundness.EventBatches
