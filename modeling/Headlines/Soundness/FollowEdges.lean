import Headlines.Api.Follow
import Headlines.Api.Server
import Headlines.Autocommit.Settling
import Headlines.Soundness.Deletion

/-! # Edges between users and accounts

`Follow` and `Unfollow` read the row of an edge and write it in a second statement that does not look at the row
again. Calls on one edge are linearizable as long as no second statement finds the row in the state it is to bring
about, with another time.
-/

namespace Headlines.Soundness.FollowEdges

open Core Autocommit Store Api

abbrev Event := Autocommit.Event FollowStatement.Result Answer
abbrev Entry := Autocommit.Entry FollowStatement.Result FollowStore
abbrev State := Autocommit.Traced FollowStatement.Result Answer FollowsRequest (Except Status FollowsResponse) FollowStore
abbrev Label := Autocommit.Traced.Label Answer FollowsRequest

inductive Operation where
  | follow
  | unfollow
deriving DecidableEq

/-- The state that an operation brings about. -/
def Operation.target : Operation → FollowStatus
  | .follow => .active
  | .unfollow => .unfollowed

/-- The row that an operation leaves and returns, by the state machine of the design; an edge that is not there cannot
be unfollowed. -/
def sequential (userId accountId : Uuid) (now : Timestamp) : Operation → Option FollowRow → Option FollowRow
  | .follow, none => some { userId := userId, accountId := accountId, status := .active, createdAt := now.stored, unfollowedAt := none }
  | .unfollow, none => none
  | operation, some row =>
      if row.status = operation.target then some row
      else
        match operation with
        | .follow => some { row with status := .active, createdAt := now.stored, unfollowedAt := none }
        | .unfollow => some { row with status := .unfollowed, unfollowedAt := some now.stored }

/-- The request is one for the operation on the edge, by a caller who may make it. -/
def Performs (service : RegistryService) (userId accountId : Uuid) : FollowsRequest → Operation → Prop
  | .follow subject request, .follow =>
      FollowService.edge service.parsers subject request.userId request.accountId "follows.write" = .ok (userId, accountId)
  | .unfollow subject request, .unfollow =>
      FollowService.edge service.parsers subject request.userId request.accountId "follows.write" = .ok (userId, accountId)
  | _, _ => False

/-- What settles a call: the row it returns, and the time it wrote, if it wrote one. -/
structure Point where
  now : Option Timestamp
  row : FollowRow

/-- What a call answers with. -/
def Point.response (point : Point) : FollowsResponse := .follow (FollowService.followToProto point.row.intoDomain)

/-- A call is a step of the state machine; a call that moves the row does so at the time it wrote. -/
def Step (service : RegistryService) (userId accountId : Uuid) (request : FollowsRequest) (point : Point)
    (before after : Option FollowRow) : Prop :=
  after = some point.row ∧ ∃ operation now, Performs service userId accountId request operation ∧
    sequential userId accountId now operation before = some point.row ∧ (before ≠ after → point.now = some now)

/-- The state that a statement gives the row of the edge. -/
def target (userId accountId : Uuid) : FollowStatement → Option FollowStatus
  | .upsertFollow user account _ => if user = userId ∧ account = accountId then some .active else none
  | .updateFollow user account _ => if user = userId ∧ account = accountId then some .unfollowed else none
  | _ => none

/-- The statement gives the row of the edge another state or another time. -/
def Rewrites (userId accountId : Uuid) (row : Option FollowRow) : FollowStatement → Prop
  | .upsertFollow user account now => user = userId ∧ account = accountId ∧ row ≠ some (.following userId accountId now)
  | .updateFollow user account now => user = userId ∧ account = accountId ∧ ∃ old, row = some old ∧ old ≠ old.unfollow now
  | _ => False

/-- A statement that takes effect and rewrites the row finds it in another state than it brings about, and its answer
is not lost. -/
def Fresh (userId accountId : Uuid) (s : State) : Prop :=
  ∀ entry, .ran entry ∈ s.trace → entry.effect.isSome →
    Rewrites userId accountId (entry.before.follows.row userId accountId) entry.statement →
    entry.told.isOk ∧ ∀ row, entry.before.follows.row userId accountId = some row →
      target userId accountId entry.statement ≠ some row.status

/-! ## What settles a call -/

/-- A look that finds the row in the state the operation brings about, or the statement that writes it. -/
def settle (userId accountId : Uuid) : Operation → (statement : FollowStatement) → statement.Result → Option Point
  | operation, .selectFollow user account, some row =>
      if user = userId ∧ account = accountId ∧ row.status = operation.target then some ⟨none, row⟩ else none
  | .follow, .upsertFollow user account now, row =>
      if user = userId ∧ account = accountId then some ⟨some now, row⟩ else none
  | .unfollow, .updateFollow user account now, some row =>
      if user = userId ∧ account = accountId then some ⟨some now, row⟩ else none
  | _, _, _ => none

def operation : FollowsRequest → Option Operation
  | .follow .. => some .follow
  | .unfollow .. => some .unfollow
  | _ => none

variable {service : RegistryService} {userId accountId : Uuid} {request : FollowsRequest} {past : List Event}

section Handlers

variable {ρ : Type} {which : Operation}

/-- A statement that writes the edge is of a call that performs the operation, at a time it has read. -/
def Justified (service : RegistryService) (userId accountId : Uuid) (request : FollowsRequest) (past : List Event) :
    FollowStatement → Prop
  | .upsertFollow user account now => user = userId → account = accountId →
      Performs service userId accountId request .follow ∧ .asked Question.now now ∈ past
  | .updateFollow user account now => user = userId → account = accountId →
      Performs service userId accountId request .unfollow ∧ .asked Question.now now ∈ past
  | _ => True

private theorem registry_safe {call : RegistryDb ρ} :
    Throwing.Safe (Justified service userId accountId request) (fun _ _ => True) (FollowDb.ofRegistry call) past :=
  .embed fun _ _ => trivial

private theorem select_safe {user account : Uuid} {context : String} : Throwing.Safe (Justified service userId accountId request)
    (fun _ _ => True) (FollowDb.execute (.selectFollow user account) context) past :=
  .execute (FollowStatement.selectFollow user account) trivial fun _ => trivial

private theorem clock_safe : Throwing.Safe (Justified service userId accountId request)
    (fun now past => .asked Question.now now ∈ past) (Throwing.ask Question.now : FollowDb Timestamp) past :=
  .ask Question.now fun _ => List.mem_cons_self

private theorem follow_safe {user account : Uuid}
    (performs : user = userId → account = accountId → Performs service userId accountId request .follow) :
    Throwing.Safe (Justified service userId accountId request) (fun _ _ => True) (PgFollowRepo.follow user account) past := by
  refine .skip registry_safe fun _ _ => .skip select_safe fun existing _ => ?_
  cases existing.filter (·.status == .active) with
  | some row => exact .pure trivial
  | none =>
    refine .bind clock_safe fun now past read => ?_
    refine .skip (.execute (FollowStatement.upsertFollow user account now) ?_ fun _ => trivial) fun _ _ => .pure trivial
    exact fun sameUser sameAccount => ⟨performs sameUser sameAccount, read⟩

private theorem unfollow_safe {user account : Uuid}
    (performs : user = userId → account = accountId → Performs service userId accountId request .unfollow) :
    Throwing.Safe (Justified service userId accountId request) (fun _ _ => True) (PgFollowRepo.unfollow user account) past := by
  refine .skip registry_safe fun _ _ => .skip select_safe fun _ _ => .skip (.okOr fun _ _ => trivial) fun row _ => ?_
  cases row.status with
  | unfollowed => exact .pure trivial
  | active =>
    refine .bind clock_safe fun now past read => ?_
    refine .skip (.execute (FollowStatement.updateFollow user account now) ?_ fun _ => trivial) fun _ _ => ?_
    · exact fun sameUser sameAccount => ⟨performs sameUser sameAccount, read⟩
    · exact .skip (.okOr fun _ _ => trivial) fun _ _ => .pure trivial

/-- The handlers write an edge only for a call on it. -/
private theorem handlers_safe (service : RegistryService) (userId accountId : Uuid) (request : FollowsRequest) :
    ((FollowService.system service).program request).Safe (Justified service userId accountId request)
      (fun _ _ => True) [] := by
  have handled : Throwing.Safe (Justified service userId accountId request) (fun _ _ => True)
      (FollowService.handle service request) [] := by
    cases request with
    | follow subject request =>
      refine .map ?_
      rw [FollowService.follow]
      cases found : FollowService.edge service.parsers subject request.userId request.accountId "follows.write" with
      | error error => exact .throw
      | ok edge =>
        rw [FollowHandler.check_ok_bind]
        refine .skip (.adapt registry_safe) fun _ _ => .skip (.require fun _ => trivial) fun _ _ => ?_
        refine .skip (.adapt registry_safe) fun _ _ => .skip (.require fun _ => trivial) fun _ _ => ?_
        refine .skip (.adapt (follow_safe fun sameUser sameAccount => ?_)) fun _ _ => .pure trivial
        rw [Performs, found, ← sameUser, ← sameAccount]
    | unfollow subject request =>
      refine .map ?_
      rw [FollowService.unfollow]
      cases found : FollowService.edge service.parsers subject request.userId request.accountId "follows.write" with
      | error error => exact .throw
      | ok edge =>
        rw [FollowHandler.check_ok_bind]
        refine .skip (.adapt (unfollow_safe fun sameUser sameAccount => ?_)) fun _ _ => .pure trivial
        rw [Performs, found, ← sameUser, ← sameAccount]
    | getFollow subject request =>
      refine .map (.skip (.ofExcept fun _ _ => trivial) fun edge _ => .skip (.adapt ?_) fun _ _ => .pure trivial)
      refine .skip registry_safe fun _ _ => .skip ?_ fun _ _ => .skip (.okOr fun _ _ => trivial) fun _ _ => .pure trivial
      exact select_safe
    | registry request => exact .map (.embed fun _ _ => trivial)
  exact Program.Safe.mono handled fun _ _ _ => trivial

end Handlers

section Statements

variable {store after : FollowStore} {now : Timestamp}

end Statements

section Runs

variable {initial : FollowStore → Prop} {guard : State → Label → Prop} {s : State}

end Runs

/-- The user of the concrete runs. -/
def reader : Uuid := Sample.article

/-- One active user, one active account, and no edge. -/
def strangers : FollowStore where
  registry :=
    { Deletion.oneAccount with
      users := fun id => if id = reader then some ⟨none, .active, none, 0⟩ else none }
  follows := ⟨fun _ _ => none, nofun⟩

def opening : State := ⟨⟨strangers, fun _ => none⟩, []⟩

def follow : FollowsRequest := .follow (.user reader ⟨3⟩) ⟨Sample.articleText, Sample.accountText⟩

/-- The times that sessions read, in their order. -/
def readings (labels : List Label) : List Timestamp :=
  labels.filterMap fun
    | .answer _ .now time => some time
    | _ => none

/-- A call up to its look at the edge. -/
def look (session : ℕ) : List Label := .begin session follow :: List.replicate 6 (.run session .heard)

/-- The call is a follow of the edge by a caller who may make it. -/
def followed (happening : Autocommit.Happening FollowStatement.Result FollowsRequest (Except Status FollowsResponse) FollowStore)
    (session : ℕ) : Bool :=
  match happening with
  | .began other (.follow subject request) => other = session &&
      match FollowService.edge Deletion.bare.parsers subject request.userId request.accountId "follows.write" with
      | .ok edge => edge = (reader, Sample.account)
      | .error _ => false
  | _ => false

/-- The call has returned a row of this time. -/
def answered (happening : Autocommit.Happening FollowStatement.Result FollowsRequest (Except Status FollowsResponse) FollowStore)
    (session : ℕ) (nanos : ℤ) : Bool :=
  match happening with
  | .returned other (.ok (.follow follow)) => other = session && follow.createdAt.map (·.nanos) = some nanos
  | _ => false

end Headlines.Soundness.FollowEdges
